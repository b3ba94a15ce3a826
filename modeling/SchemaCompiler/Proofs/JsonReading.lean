import SchemaCompiler.Json.Reader
import SchemaCompiler.Json.Value

/-!
# Printed JSON is read back

A reader of JSON texts, and the proof that it inverts printing: `Value.ofText?_render` says that
every value is what its printed form is read as.

The reader works in two stages. `scanMarks` splits a text into its marks: signs, strings and truth
values, with spaces dropped. `valueOfMarks` builds the value from the marks and keeps the lists and
objects that are still open on a stack. Between the stages stands `Value.marks`, the marks of a
value. A printed value is split into its marks, whatever its indentation (`splitsInto_print`), and
the marks of a value build the value, whatever is open around it (`valueOfMarks_marks`).
-/

namespace SchemaCompiler.Json

/-! ## Strings -/

/-- A letter with a short escape stands for the character that is written with it. -/
theorem unescape?_of_shortEscape? {c letter : Char} (h : Text.shortEscape? c = some letter) :
    unescape? letter = some c ∧ letter ≠ 'u' := by
  unfold Text.shortEscape? at h
  split at h <;> cases h <;> exact ⟨rfl, by decide⟩

/-- Four hexadecimal digits are read as the number that is written with them. -/
theorem readCode_hexDigits {number : Nat} (h : number < 0x10000) (rest : List Char) :
    readCode (Text.hexDigits 4 number ++ rest) = .ok (number, rest) := by
  have hdigit (value : Nat) : Text.hexValue? (Text.hexDigit (value % 16)) = some (value % 16) :=
    Text.hexValue?_hexDigit (Nat.mod_lt _ (by decide))
  simp only [Text.hexDigits, List.nil_append, List.cons_append, readCode, hdigit]
  congr 2
  omega

/-- A control character is read back from its code. -/
theorem readCodedChar_hexDigits {c : Char} (h : c.toNat < 0x20) (rest : List Char) :
    readCodedChar (Text.hexDigits 4 c.toNat ++ rest) = .ok (c, rest) := by
  have hfirst : isFirstHalf c.toNat = false := by
    simp only [isFirstHalf, Bool.and_eq_false_iff, decide_eq_false_iff_not]
    omega
  have hsecond : isSecondHalf c.toNat = false := by
    simp only [isSecondHalf, Bool.and_eq_false_iff, decide_eq_false_iff_not]
    omega
  simp only [readCodedChar, readCode_hexDigits (Nat.lt_trans h (by decide)), bind, Except.bind,
    hfirst, hsecond]
  rw [Char.ofNat_toNat]
  rfl

/-- A string goes on after an escape. -/
theorem readChars_escape {text rest : List Char} {c : Char} (h : readEscape text = .ok (c, rest)) :
    readChars ('\\' :: text) =
      (readChars rest).map fun (content, after) => (c :: content, after) := by
  rw [readChars]
  split
  · next fault hfault =>
    rw [h] at hfault
    cases hfault
  · next found after hfound =>
    rw [h] at hfound
    cases hfound
    rfl

/-- A string goes on after a character that stands for itself. -/
theorem readChars_plain {c : Char} (hquote : c ≠ '"') (hbackslash : c ≠ '\\')
    (hcontrol : ¬ c.toNat < 0x20) (rest : List Char) :
    readChars (c :: rest) =
      (readChars rest).map fun (content, after) => (c :: content, after) := by
  rw [readChars]
  · rw [if_neg hcontrol]
  · exact hquote
  · exact hbackslash

/-- A character is read back from the way it is written between quotes. -/
theorem readChars_quotedChar (c : Char) (rest : List Char) :
    readChars (Text.quotedChar c ++ rest) =
      (readChars rest).map fun (content, after) => (c :: content, after) := by
  unfold Text.quotedChar
  split
  · next letter hletter =>
    obtain ⟨hescape, hcode⟩ := unescape?_of_shortEscape? hletter
    have hread : readEscape (letter :: rest) = .ok (c, rest) := by
      rw [readEscape]
      · rw [hescape]
      · exact hcode
    exact readChars_escape hread
  · next hnone =>
    split
    · next hcontrol =>
      have hread : readEscape ('u' :: (Text.hexDigits 4 c.toNat ++ rest)) = .ok (c, rest) :=
        readCodedChar_hexDigits hcontrol rest
      exact readChars_escape hread
    · next hcontrol =>
      refine readChars_plain ?_ ?_ hcontrol rest
      · rintro rfl
        cases hnone
      · rintro rfl
        cases hnone

/-- A text in quotes is read back, whatever stands after it. -/
theorem readString_quotedChars (text : String) (rest : List Char) :
    readString (text.toList.flatMap Text.quotedChar ++ '"' :: rest) = .ok (text, rest) := by
  have hchars (chars : List Char) :
      readChars (chars.flatMap Text.quotedChar ++ '"' :: rest) = .ok (chars, rest) := by
    induction chars with
    | nil =>
        rw [List.flatMap_nil, List.nil_append, readChars]
    | cons c chars ih =>
        rw [List.flatMap_cons, List.append_assoc, readChars_quotedChar, ih]
        rfl
  rw [readString, hchars]
  show Except.ok (String.ofList text.toList, rest) = _
  rw [String.ofList_toList]

/-! ## Marks -/

/-- The parts of a JSON text of strings, truth values, lists and objects: brackets, braces, the
comma between items or members, the colon between a key and its value, strings, and truth values. -/
inductive Mark where
  | openList
  | closeList
  | openObject
  | closeObject
  | comma
  | colon
  | text (content : String)
  | flag (value : Bool)
deriving DecidableEq, Repr

/-- The mark at the start of a text, and the text after it. -/
def markAt? : List Char → Option (Mark × List Char)
  | '[' :: rest => some (.openList, rest)
  | ']' :: rest => some (.closeList, rest)
  | '\x7b' :: rest => some (.openObject, rest)
  | '\x7d' :: rest => some (.closeObject, rest)
  | ',' :: rest => some (.comma, rest)
  | ':' :: rest => some (.colon, rest)
  | 't' :: 'r' :: 'u' :: 'e' :: rest => some (.flag true, rest)
  | 'f' :: 'a' :: 'l' :: 's' :: 'e' :: rest => some (.flag false, rest)
  | '"' :: rest =>
    match readString rest with
    | .ok (content, rest) => some (.text content, rest)
    | .error _ => none
  | _ => none

/-- What is left after a mark is shorter, and the mark does not start with a space. -/
theorem length_lt_of_markAt? {c : Char} {text rest : List Char} {mark : Mark}
    (h : markAt? (c :: text) = some (mark, rest)) :
    rest.length < (c :: text).length ∧ isSpace c = false := by
  unfold markAt? at h
  split at h
  case h_9 heq =>
    obtain ⟨rfl, rfl⟩ := List.cons.inj heq
    split at h
    · next content after hstring =>
      cases h
      exact ⟨Nat.lt_succ_of_lt (length_lt_of_readString hstring), rfl⟩
    · cases h
  case h_10 => cases h
  all_goals
    next heq =>
    obtain ⟨rfl, rfl⟩ := List.cons.inj heq
    cases h
    simp only [List.length_cons]
    exact ⟨by omega, rfl⟩

/-- The marks of a text. -/
def scanMarks (text : List Char) : Option (List Mark) :=
  match text with
  | [] => some []
  | c :: rest =>
    if isSpace c then scanMarks rest
    else
      match _ : markAt? (c :: rest) with
      | some (mark, rest) => (scanMarks rest).map (mark :: ·)
      | none => none
termination_by text.length
decreasing_by
  · simp
  · exact (length_lt_of_markAt? ‹_›).1

/-- Spaces before a text are dropped. -/
theorem scanMarks_space {spaces : List Char} (h : ∀ c ∈ spaces, isSpace c = true)
    (rest : List Char) : scanMarks (spaces ++ rest) = scanMarks rest := by
  induction spaces with
  | nil => rfl
  | cons c spaces ih =>
      rw [List.cons_append, scanMarks, if_pos (h c (by simp))]
      exact ih fun other hother => h other (by simp [hother])

/-- A mark at the start of a text is its first one. -/
theorem scanMarks_mark {text rest : List Char} {mark : Mark}
    (h : markAt? text = some (mark, rest)) :
    scanMarks text = (scanMarks rest).map (mark :: ·) := by
  cases text with
  | nil => cases h
  | cons c text =>
      have hspace := (length_lt_of_markAt? h).2
      rw [scanMarks, if_neg (by simp [hspace])]
      split
      · next found after hfound =>
        rw [h] at hfound
        cases hfound
        rfl
      · next hnone =>
        rw [h] at hnone
        cases hnone

/-- A text that is split into the given marks, whatever follows it. -/
def SplitsInto (text : String) (marks : List Mark) : Prop :=
  ∀ rest, scanMarks (text.toList ++ rest) = (scanMarks rest).map (marks ++ ·)

/-- The empty text has no marks. -/
theorem splitsInto_empty : SplitsInto "" [] := by
  intro rest
  show scanMarks rest = (scanMarks rest).map ([] ++ ·)
  simp

/-- Texts after each other have the marks of both. -/
theorem SplitsInto.append {first second : String} {marks others : List Mark}
    (hfirst : SplitsInto first marks) (hsecond : SplitsInto second others) :
    SplitsInto (first ++ second) (marks ++ others) := by
  intro rest
  rw [String.toList_append, List.append_assoc, hfirst, hsecond, Option.map_map]
  congr 1
  funext found
  exact (List.append_assoc ..).symm

/-- A text that is one mark. -/
theorem splitsInto_of_markAt? {text : String} {mark : Mark}
    (h : ∀ rest, markAt? (text.toList ++ rest) = some (mark, rest)) : SplitsInto text [mark] :=
  fun rest => scanMarks_mark (h rest)

/-- The opening bracket of a list is one mark. -/
theorem splitsInto_openList : SplitsInto "[" [.openList] :=
  splitsInto_of_markAt? fun _ => rfl

/-- The closing bracket of a list is one mark. -/
theorem splitsInto_closeList : SplitsInto "]" [.closeList] :=
  splitsInto_of_markAt? fun _ => rfl

/-- The opening brace of an object is one mark. -/
theorem splitsInto_openObject : SplitsInto "\x7b" [.openObject] :=
  splitsInto_of_markAt? fun _ => rfl

/-- The closing brace of an object is one mark. -/
theorem splitsInto_closeObject : SplitsInto "\x7d" [.closeObject] :=
  splitsInto_of_markAt? fun _ => rfl

/-- A space has no marks. -/
theorem splitsInto_space : SplitsInto " " [] := by
  intro rest
  rw [scanMarks_space (by simp [isSpace])]
  exact splitsInto_empty rest

/-- The line break before an item has no marks. -/
theorem splitsInto_newline (depth : Nat) : SplitsInto (newline depth) [] := by
  intro rest
  rw [scanMarks_space]
  · exact splitsInto_empty rest
  · intro c hc
    rw [newline, String.toList_ofList] at hc
    rcases List.mem_cons.1 hc with rfl | hspace
    · rfl
    · rw [List.eq_of_mem_replicate hspace]
      rfl

/-- A text in quotes is one mark. -/
theorem splitsInto_quoted (content : String) :
    SplitsInto (Text.quoted content) [.text content] := by
  refine splitsInto_of_markAt? fun rest => ?_
  rw [Text.quoted, String.toList_ofList, Text.quotedChars, List.cons_append, List.append_assoc]
  show (match readString (content.toList.flatMap Text.quotedChar ++ '"' :: rest) with
    | .ok (content, rest) => some (Mark.text content, rest)
    | .error _ => none) = _
  rw [readString_quotedChars]

/-- A truth value is one mark. -/
theorem splitsInto_flag (value : Bool) :
    SplitsInto (if value then "true" else "false") [.flag value] := by
  cases value with
  | false => exact splitsInto_of_markAt? fun _ => rfl
  | true => exact splitsInto_of_markAt? fun _ => rfl

/-- The comma before a further item or member, with its line break. -/
theorem splitsInto_comma (depth : Nat) : SplitsInto ("," ++ newline depth) [.comma] :=
  (splitsInto_of_markAt? fun _ => rfl).append (splitsInto_newline depth)

/-- A key with its colon. -/
theorem splitsInto_key (key : String) :
    SplitsInto (Text.quoted key ++ ": ") [.text key, .colon] := by
  have hcolon : SplitsInto ":" [.colon] := splitsInto_of_markAt? fun _ => rfl
  exact (splitsInto_quoted key).append (hcolon.append splitsInto_space)

mutual

/-- The marks of a value. -/
def Value.marks : Value → List Mark
  | .text content => [.text content]
  | .flag value => [.flag value]
  | .list [] => [.openList, .closeList]
  | .list (item :: items) => .openList :: (item.marks ++ itemMarks items ++ [.closeList])
  | .object [] => [.openObject, .closeObject]
  | .object ((key, value) :: members) =>
    .openObject :: .text key :: .colon :: (value.marks ++ memberMarks members ++ [.closeObject])

/-- The marks of the items of a list after the first one. -/
def itemMarks : List Value → List Mark
  | [] => []
  | item :: items => .comma :: (item.marks ++ itemMarks items)

/-- The marks of the members of an object after the first one. -/
def memberMarks : List (String × Value) → List Mark
  | [] => []
  | (key, value) :: members =>
    .comma :: .text key :: .colon :: (value.marks ++ memberMarks members)

end

mutual

/-- A printed value is split into its marks, whatever its indentation. -/
theorem splitsInto_print (depth : Nat) : (value : Value) →
    SplitsInto (value.print depth) value.marks
  | .text content => splitsInto_quoted content
  | .flag value => splitsInto_flag value
  | .list [] => by
      rw [Value.print, Value.marks]
      exact splitsInto_openList.append splitsInto_closeList
  | .list (item :: items) => by
      have hitems := (splitsInto_print (depth + 1) item).append (splitsInto_printItems depth items)
      have hparts := (splitsInto_openList.append (splitsInto_newline (depth + 1))).append
        (hitems.append ((splitsInto_newline depth).append splitsInto_closeList))
      simpa [Value.print, Value.marks, String.append_assoc] using hparts
  | .object [] => by
      rw [Value.print, Value.marks]
      exact splitsInto_openObject.append splitsInto_closeObject
  | .object ((key, value) :: members) => by
      have hmembers := ((splitsInto_key key).append (splitsInto_print (depth + 1) value)).append
        (splitsInto_printMembers depth members)
      have hparts := (splitsInto_openObject.append (splitsInto_newline (depth + 1))).append
        (hmembers.append ((splitsInto_newline depth).append splitsInto_closeObject))
      simpa [Value.print, Value.marks, String.append_assoc] using hparts

/-- The printed items of a list after the first one are split into their marks. -/
theorem splitsInto_printItems (depth : Nat) : (items : List Value) →
    SplitsInto (printItems depth items) (itemMarks items)
  | [] => splitsInto_empty
  | item :: items => by
      have hparts := ((splitsInto_comma (depth + 1)).append
        (splitsInto_print (depth + 1) item)).append (splitsInto_printItems depth items)
      simpa [printItems, itemMarks] using hparts

/-- The printed members of an object after the first one are split into their marks. -/
theorem splitsInto_printMembers (depth : Nat) : (members : List (String × Value)) →
    SplitsInto (printMembers depth members) (memberMarks members)
  | [] => splitsInto_empty
  | (key, value) :: members => by
      have hparts := (((splitsInto_comma (depth + 1)).append (splitsInto_key key)).append
        (splitsInto_print (depth + 1) value)).append (splitsInto_printMembers depth members)
      simpa [printMembers, memberMarks, String.append_assoc] using hparts

end

/-! ## Values of marks -/

/-- A list after some items, or an object after some members and a further key, that is still open.
-/
inductive Frame where
  | list (items : List Value)
  | object (members : List (String × Value)) (key : String)

mutual

/-- The value of a list of marks. The marks start with a value, inside of what the stack holds open,
the innermost first. -/
def valueOfMarks (stack : List Frame) : List Mark → Option Value
  | .text content :: rest => valueAfter stack (.text content) rest
  | .flag value :: rest => valueAfter stack (.flag value) rest
  | .openList :: .closeList :: rest => valueAfter stack (.list []) rest
  | .openList :: rest => valueOfMarks (.list [] :: stack) rest
  | .openObject :: .closeObject :: rest => valueAfter stack (.object []) rest
  | .openObject :: .text key :: .colon :: rest => valueOfMarks (.object [] key :: stack) rest
  | _ => none

/-- The value of a list of marks after the end of an inner value. -/
def valueAfter : List Frame → Value → List Mark → Option Value
  | [], value, [] => some value
  | .list items :: stack, value, .comma :: rest =>
    valueOfMarks (.list (items ++ [value]) :: stack) rest
  | .list items :: stack, value, .closeList :: rest =>
    valueAfter stack (.list (items ++ [value])) rest
  | .object members key :: stack, value, .comma :: .text next :: .colon :: rest =>
    valueOfMarks (.object (members ++ [(key, value)]) next :: stack) rest
  | .object members key :: stack, value, .closeObject :: rest =>
    valueAfter stack (.object (members ++ [(key, value)])) rest
  | _, _, _ => none

end

/-- A list whose first item follows its bracket is open at that item. -/
theorem valueOfMarks_openList (stack : List Frame) (item : Value) (rest : List Mark) :
    valueOfMarks stack (.openList :: (item.marks ++ rest)) =
      valueOfMarks (.list [] :: stack) (item.marks ++ rest) := by
  have hstart : ∀ marks, item.marks ++ rest ≠ .closeList :: marks := by
    intro marks
    cases item with
    | text content => simp [Value.marks]
    | flag value => simp [Value.marks]
    | list items => cases items <;> simp [Value.marks]
    | object members => cases members <;> simp [Value.marks]
  rw [valueOfMarks]
  exact hstart

mutual

/-- The marks of a value are read as the value, whatever is open around it and whatever follows. -/
theorem valueOfMarks_marks (stack : List Frame) (rest : List Mark) : (value : Value) →
    valueOfMarks stack (value.marks ++ rest) = valueAfter stack value rest
  | .text content => rfl
  | .flag value => rfl
  | .list [] => rfl
  | .list (item :: items) => by
      have hitems := valueAfter_itemMarks stack [] rest item items
      rw [Value.marks, List.cons_append, List.append_assoc, List.append_assoc,
        valueOfMarks_openList, valueOfMarks_marks]
      exact hitems
  | .object [] => rfl
  | .object ((key, value) :: members) => by
      have hmembers := valueAfter_memberMarks stack [] rest key value members
      rw [Value.marks, List.cons_append, List.cons_append, List.cons_append, List.append_assoc,
        List.append_assoc, valueOfMarks, valueOfMarks_marks]
      exact hmembers

/-- The marks of further items are read as the items, up to the end of their list. -/
theorem valueAfter_itemMarks (stack : List Frame) (before : List Value) (rest : List Mark)
    (item : Value) : (items : List Value) →
    valueAfter (.list before :: stack) item (itemMarks items ++ .closeList :: rest) =
      valueAfter stack (.list (before ++ item :: items)) rest
  | [] => by
      rw [itemMarks, List.nil_append, valueAfter]
  | next :: items => by
      have hitems := valueAfter_itemMarks stack (before ++ [item]) rest next items
      rw [itemMarks, List.cons_append, List.append_assoc, valueAfter, valueOfMarks_marks, hitems,
        List.append_assoc, List.singleton_append]

/-- The marks of further members are read as the members, up to the end of their object. -/
theorem valueAfter_memberMarks (stack : List Frame) (before : List (String × Value))
    (rest : List Mark) (key : String) (value : Value) : (members : List (String × Value)) →
    valueAfter (.object before key :: stack) value (memberMarks members ++ .closeObject :: rest) =
      valueAfter stack (.object (before ++ (key, value) :: members)) rest
  | [] => by
      rw [memberMarks, List.nil_append, valueAfter]
  | (next, other) :: members => by
      have hmembers :=
        valueAfter_memberMarks stack (before ++ [(key, value)]) rest next other members
      rw [memberMarks, List.cons_append, List.cons_append, List.cons_append, List.append_assoc,
        valueAfter, valueOfMarks_marks, hmembers, List.append_assoc, List.singleton_append]

end

/-! ## The main result -/

/-- The value that a text is read as. -/
def Value.ofText? (text : String) : Option Value :=
  (scanMarks text.toList).bind (valueOfMarks [])

/-- Every value is what its printed form is read as. -/
theorem Value.ofText?_render (value : Value) : ofText? value.render = some value := by
  have hscan := splitsInto_print 0 value []
  have hbuild := valueOfMarks_marks [] [] value
  rw [List.append_nil] at hscan hbuild
  rw [ofText?, render, hscan, scanMarks]
  simpa [valueAfter] using hbuild

end SchemaCompiler.Json
