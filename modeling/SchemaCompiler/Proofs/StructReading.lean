import SchemaCompiler.Proofs.HeaderLines

/-!
# Reading the structures of a header

`Header.structReadings` scans the lines of a header text without knowing the schema. It cuts the
lines of the namespace into the structures, and reads three lists of names off each of them: the
members, the keys that `Get` asks for, and the keys that `ToValue` adds. With each name it reads
whether the member is a list. `struct_readings_follow_messages` says that the three lists agree with
the fields of the message.

The structures and the keys are found in the same way. A line with a key starts a stretch, which
goes on up to the next key (`Text.stretches`), and `Text.map_stretches_flatMap` says what is read
off the stretches of lines that are emitted value by value. Names cannot imitate the lines that are
looked for, since an identifier has no quote, space or bracket (`Header.key?_identifier_append`).
-/

namespace SchemaCompiler

/-! ## Lines with keys -/

namespace Text

/-- What stands in a line after the given start and before the next occurrence of a character, if
the line starts so. -/
def wordAfter? (start : String) (stop : Char) (line : String) : Option String :=
  if start.toList <+: line.toList then
    some (String.ofList ((line.toList.drop start.toList.length).takeWhile (· != stop)))
  else none

/-- A line without the spaces before it. -/
def unindented (line : String) : String :=
  String.ofList (line.toList.dropWhile (· == ' '))

/-- What follows the last element without a property is found from the end. -/
theorem rtakeWhile_append_cons {α : Type} {property : α → Bool} {before after : List α} {mark : α}
    (hafter : ∀ other ∈ after, property other = true) (hmark : property mark = false) :
    (before ++ mark :: after).rtakeWhile property = after := by
  have hreverse : ∀ other ∈ after.reverse, property other = true :=
    fun other hmem => hafter other (List.mem_reverse.1 hmem)
  rw [List.rtakeWhile, List.reverse_append, List.reverse_cons, List.append_assoc,
    List.takeWhile_append_of_pos hreverse, List.singleton_append,
    List.takeWhile_cons_of_neg (by simp [hmark]), List.append_nil, List.reverse_reverse]

/-- The keys of some lines in their order, each with its line and the lines up to the next key. -/
def stretches (key? : String → Option String) : List String → List (String × List String)
  | [] => []
  | line :: rest =>
    match key? line with
    | some key =>
      (key, line :: rest.takeWhile fun next => (key? next).isNone) :: stretches key? rest
    | none => stretches key? rest

/-- A word between a start and a character that the word does not hold is found. -/
theorem wordAfter?_eq_some {start word rest : String} {stop : Char} (hword : stop ∉ word.toList)
    (hrest : rest.toList.head? = some stop) :
    wordAfter? start stop (start ++ word ++ rest) = some word := by
  have hstop : rest.toList.takeWhile (· != stop) = [] := by
    cases hlist : rest.toList with
    | nil => rfl
    | cons c more =>
        rw [hlist, List.head?_cons, Option.some_inj] at hrest
        simp [hrest]
  have hall : ∀ c ∈ word.toList, (c != stop) = true :=
    fun c hmem => bne_iff_ne.2 fun heq => hword (heq ▸ hmem)
  have hlist : (start ++ word ++ rest).toList = start.toList ++ (word.toList ++ rest.toList) := by
    simp
  rw [wordAfter?, hlist, if_pos (List.prefix_append _ _), List.drop_left,
    List.takeWhile_append_of_pos hall, hstop, List.append_nil, String.ofList_toList]

/-- Nothing is found in a line with another start. -/
theorem wordAfter?_eq_none {start line : String} {stop : Char}
    (h : ¬ start.toList <+: line.toList) : wordAfter? start stop line = none :=
  if_neg h

section

variable {key? : String → Option String} {α : Type} {values : List α}
  {before after : α → List String} {line key : α → String} {last : List String}

/-- Lines without keys are passed over. -/
theorem stretches_append {first : List String} (h : ∀ line ∈ first, key? line = none)
    (rest : List String) : stretches key? (first ++ rest) = stretches key? rest := by
  induction first with
  | nil => rfl
  | cons line first ih =>
      rw [List.cons_append, stretches, h line List.mem_cons_self]
      exact ih fun other hmem => h other (List.mem_cons_of_mem line hmem)

/-- Lines without keys have no stretches. -/
theorem stretches_of_none {lines : List String} (h : ∀ line ∈ lines, key? line = none) :
    stretches key? lines = [] := by
  have hnil := stretches_append h []
  rwa [List.append_nil] at hnil

/-- The lines up to the next key are those before the key of the next value, or the last ones. -/
theorem mem_takeWhile_flatMap (hline : ∀ value ∈ values, key? (line value) = some (key value))
    {next : String}
    (h : next ∈ (values.flatMap (fun value => before value ++ line value :: after value) ++
      last).takeWhile fun next => (key? next).isNone) :
    (∃ value ∈ values, next ∈ before value) ∨ next ∈ last := by
  cases values with
  | nil => exact .inr (List.takeWhile_sublist _ |>.subset h)
  | cons value rest =>
      refine .inl ⟨value, List.mem_cons_self, ?_⟩
      rw [List.flatMap_cons, List.append_assoc, List.append_assoc, List.cons_append,
        List.takeWhile_append] at h
      split at h
      · rw [List.takeWhile_cons_of_neg (by simp [hline value List.mem_cons_self]),
          List.append_nil] at h
        exact h
      · exact (List.takeWhile_sublist _).subset h

/-- What is read off the stretches of some values, with one key for each, is what is read off the
lines of each value, if the lines before the next key make no difference. -/
theorem map_stretches_flatMap {β : Type} {read : String × List String → β} {result : α → β}
    (hbefore : ∀ value ∈ values, ∀ next ∈ before value, key? next = none)
    (hline : ∀ value ∈ values, key? (line value) = some (key value))
    (hafter : ∀ value ∈ values, ∀ next ∈ after value, key? next = none)
    (hlast : ∀ next ∈ last, key? next = none)
    (hread : ∀ value ∈ values, ∀ more : List String,
      (∀ next ∈ more, (∃ value ∈ values, next ∈ before value) ∨ next ∈ last) →
      read (key value, line value :: (after value ++ more)) = result value) :
    (stretches key? (values.flatMap (fun value => before value ++ line value :: after value) ++
      last)).map read = values.map result := by
  induction values with
  | nil =>
      rw [List.flatMap_nil, List.nil_append, stretches_of_none hlast]
      rfl
  | cons value rest ih =>
      obtain ⟨hbeforeValue, hbefore⟩ := List.forall_mem_cons.1 hbefore
      obtain ⟨hlineValue, hline⟩ := List.forall_mem_cons.1 hline
      obtain ⟨hafterValue, hafter⟩ := List.forall_mem_cons.1 hafter
      have hwider {next : String} (h : (∃ other ∈ rest, next ∈ before other) ∨ next ∈ last) :
          (∃ other ∈ value :: rest, next ∈ before other) ∨ next ∈ last :=
        h.imp_left fun ⟨other, hother, hnext⟩ => ⟨other, List.mem_cons_of_mem value hother, hnext⟩
      have hfirst := hread value List.mem_cons_self
        ((rest.flatMap (fun value => before value ++ line value :: after value) ++
          last).takeWhile fun next => (key? next).isNone)
        fun next hmem => hwider (mem_takeWhile_flatMap hline hmem)
      have hrest := ih hbefore hline hafter fun other hother more hmore =>
        hread other (List.mem_cons_of_mem value hother) more
          fun next hmem => hwider (hmore next hmem)
      rw [List.flatMap_cons, List.append_assoc, List.append_assoc, stretches_append hbeforeValue,
        List.cons_append, stretches, hlineValue]
      dsimp only
      rw [List.map_cons, stretches_append hafterValue, hrest, List.takeWhile_append_of_pos
        (fun next hmem => by rw [hafterValue next hmem]; rfl), hfirst, List.map_cons]

end

end Text

/-- A line that starts with an identifier does not start with other words after which another mark
stands. -/
theorem IsIdentifier.not_isPrefix_append {name rest : String} (h : IsIdentifier name) {c : Char}
    (hrest : rest.toList.head? = some c) (hpart : isIdentifierPart c = false)
    {start : String} {mark : Char}
    (hstart : (start.toList.dropWhile isIdentifierPart).head? = some mark) (hmark : mark ≠ c) :
    ¬ start.toList <+: (name ++ rest).toList := by
  rintro ⟨last, hlast⟩
  obtain ⟨tail, htail⟩ := List.head?_eq_some_iff.1 hrest
  obtain ⟨more, hmore⟩ := List.head?_eq_some_iff.1 hstart
  have hname : ∀ c ∈ name.toList, isIdentifierPart c = true :=
    fun _ hmem => h.isIdentifierPart_of_mem hmem
  -- The first characters that stand in no identifier are the same.
  have hmarks := congrArg (List.dropWhile isIdentifierPart) hlast
  rw [String.toList_append, htail, List.dropWhile_append_of_pos hname,
    List.dropWhile_cons_of_neg (by simp [hpart]), List.dropWhile_append, hmore] at hmarks
  exact hmark (List.cons.inj hmarks).1

/-- The names of the fields of a message in the order of their declaration, each with whether the
field is a list. -/
def Message.fieldList (message : Message) : List (String × Bool) :=
  message.fields.map fun field => (field.identifier, field.repeated)

namespace Header

open Layout

/-! ## The scanner -/

/-- How a method goes through the members: how a line with the key of a member starts, up to the
key, and which lines make a list of the member with a given key. -/
structure KeyScan where
  start : String
  listLines : String → List String

namespace KeyScan

/-- The key in a line. -/
def key? (scan : KeyScan) (line : String) : Option String :=
  Text.wordAfter? scan.start '"' line

/-- A key, and whether its stretch of lines makes a list. -/
def read (scan : KeyScan) (stretch : String × List String) : String × Bool :=
  (stretch.1, decide (∀ line ∈ scan.listLines stretch.1, line ∈ stretch.2))

/-- The keys of lines in their order, each with whether its stretch makes a list. -/
def keys (scan : KeyScan) (lines : List String) : List (String × Bool) :=
  (Text.stretches scan.key? lines).map scan.read

end KeyScan

/-- How the method that reads a JSON value goes through the members. It asks for each member, and
then goes through the items of a list. -/
def readScan : KeyScan where
  start := "assert(v.HasMember(\""
  listLines key := ["for (auto&& i : v[\"" ++ key ++ "\"].GetArray()) \x7b"]

/-- How the method that builds a JSON value goes through the members. It adds each member, a list as
an array that it fills with the items before. -/
def writeScan : KeyScan where
  start := "v.AddMember(\""
  listLines key :=
    ["rapidjson::Value array(rapidjson::kArrayType);", "for (auto&& i : " ++ key ++ ") \x7b",
      "v.AddMember(\"" ++ key ++ "\", array, allocator);"]

/-- The lines between the head of a method and its end, without indentation. -/
def methodBody (head : String) (block : List String) : List String :=
  (methodLines head block).tail.dropLast.map Text.unindented

/-- The name in the line of a member, and whether its type is a list. -/
def readMember (line : String) : String × Bool :=
  (String.ofList (line.toList.rtakeWhile (· != ' ')).dropLast,
    decide ("    std::vector<".toList <+: line.toList))

/-- What the lines of a structure say about the fields: its members before the one that owns the
document, the keys that are read from a JSON value, and the keys that are written into one, each
with whether it is a list. -/
structure StructReading where
  name : String
  members : List (String × Bool)
  reads : List (String × Bool)
  writes : List (String × Bool)
deriving DecidableEq, Repr

/-- Reads the lines of a structure with the given name. A key is written after the lines that build
its array, so these lines are gone through from the end. -/
def StructReading.ofLines (name : String) (block : List String) : StructReading where
  name := name
  members := (block.tail.takeWhile
    (· != memberLine "std::shared_ptr<rapidjson::Document>" sourceDocument)).map readMember
  reads := readScan.keys (methodBody (getHead name) block)
  writes := (writeScan.keys (methodBody toValueHead block).reverse).reverse

/-- The name in the first line of a structure. -/
def structName? (line : String) : Option String :=
  Text.wordAfter? "struct " ' ' line

/-- The lines after the head of the last namespace. -/
def namespaceBody (lines : List String) : List String :=
  lines.rtakeWhile fun line => !decide ("namespace ".toList <+: line.toList)

/-- What the structures in the namespace of a header say about the fields. -/
def structReadings (header : String) : List StructReading :=
  (Text.stretches structName? (namespaceBody (Text.feedLines header))).map fun (name, block) =>
    .ofLines name (linesThrough "\x7d;" block)

/-! ## Keys -/

/-- The keys of lines with one key for each field are the names of the fields, and tell the lists if
the lines of a list are there and one of them is missing from the others. -/
theorem KeyScan.keys_flatMap {scan : KeyScan} {fields : List Field}
    {before after : Field → List String} {line : Field → String} {last : List String}
    (hbefore : ∀ field ∈ fields, ∀ next ∈ before field, scan.key? next = none)
    (hline : ∀ field ∈ fields, scan.key? (line field) = some field.identifier)
    (hafter : ∀ field ∈ fields, ∀ next ∈ after field, scan.key? next = none)
    (hlast : ∀ next ∈ last, scan.key? next = none)
    (hlist : ∀ field ∈ fields, field.repeated = true →
      ∀ mark ∈ scan.listLines field.identifier, mark ∈ line field :: after field)
    (hsingle : ∀ field ∈ fields, field.repeated = false →
      ∃ mark ∈ scan.listLines field.identifier, mark ∉ line field :: after field ∧
        (∀ other ∈ fields, mark ∉ before other) ∧ mark ∉ last) :
    scan.keys (fields.flatMap (fun field => before field ++ line field :: after field) ++ last) =
      fields.map fun field => (field.identifier, field.repeated) := by
  refine Text.map_stretches_flatMap hbefore hline hafter hlast fun field hfield more hmore => ?_
  refine Prod.ext rfl ?_
  show decide (∀ mark ∈ scan.listLines field.identifier,
    mark ∈ line field :: (after field ++ more)) = field.repeated
  cases hrepeated : field.repeated with
  | true =>
      refine decide_eq_true fun mark hmark => ?_
      rw [← List.cons_append]
      exact List.mem_append_left more (hlist field hfield hrepeated mark hmark)
  | false =>
      obtain ⟨mark, hmark, hself, hothers, hend⟩ := hsingle field hfield hrepeated
      refine decide_eq_false fun hall => ?_
      have hmem := hall mark hmark
      rw [← List.cons_append, List.mem_append] at hmem
      rcases hmem with hmem | hmem
      · exact hself hmem
      · rcases hmore mark hmem with ⟨other, hother, hnext⟩ | hnext
        · exact hothers other hother hnext
        · exact hend hnext

/-! ## The bodies of the methods -/

/-- A text that starts with no space. -/
def StartsPlain (text : String) : Prop :=
  text.toList.head? ≠ some ' '

/-- A text that starts with no space is a line without its indentation. -/
theorem unindented_indented {text : String} (h : StartsPlain text) (depth : Nat) :
    Text.unindented (indented depth text) = text := by
  have hstart : text.toList.dropWhile (· == ' ') = text.toList := by
    cases hlist : text.toList with
    | nil => rfl
    | cons c rest =>
        rw [StartsPlain, hlist, List.head?_cons] at h
        exact List.dropWhile_cons_of_neg (by simpa using h)
  unfold indented
  split
  · next hempty => rw [hempty]; rfl
  · rw [Text.unindented, String.toList_append, String.toList_ofList,
      List.dropWhile_append_of_pos (fun c hmem => by rw [List.eq_of_mem_replicate hmem]; rfl),
      hstart, String.ofList_toList]

/-- The lines of a layout without their indentation are its texts, if these start with no spaces. -/
theorem map_unindented_lines {items : List LayoutItem}
    (h : AllTexts StartsPlain items) (depth : Nat) :
    (lines depth items).map Text.unindented = items.map LayoutItem.text := by
  induction items generalizing depth with
  | nil => rfl
  | cons item rest ih =>
      obtain ⟨hitem, hrest⟩ := allTexts_cons.1 h
      cases item with
      | line text | enter text | leave text =>
          have htext : StartsPlain text := hitem
          rw [lines, List.map_cons, List.map_cons, unindented_indented htext, ih hrest]
          rfl

/-- The body of a method without its indentation is its texts. -/
theorem methodBody_eq {head : String} {body : List LayoutItem} {block : List String}
    (hmethod : methodLines head block = lines 1 (Layout.block head body "\x7d"))
    (hbody : Nested body) (h : AllTexts StartsPlain body) :
    methodBody head block = body.map LayoutItem.text := by
  rw [methodBody, hmethod, lines_block hbody.level, List.tail_cons, List.dropLast_concat,
    map_unindented_lines h]

/-- The lines of a structure start with no spaces. -/
theorem startsPlain_struct {message : Message} (h : message.Spellable) (serializers : Bool) :
    AllTexts StartsPlain (struct serializers message) :=
  fun item hitem => (tidy_struct h serializers item hitem).1

/-! ## Reading -/

/-- The line that asks for a field has its name as the key. -/
theorem key?_hasMember {name : String} (h : IsIdentifier name) :
    readScan.key? ("assert(v.HasMember(\"" ++ name ++ "\"));") = some name :=
  Text.wordAfter?_eq_some (h.notMem (by decide)) (by decide)

/-- A line that starts with an identifier and goes on with another character than a bracket does not
ask for a field. -/
theorem key?_identifier_append {name rest : String} (h : IsIdentifier name) {c : Char}
    (hrest : rest.toList.head? = some c) (hpart : isIdentifierPart c = false) (hc : '(' ≠ c) :
    readScan.key? (name ++ rest) = none :=
  Text.wordAfter?_eq_none (h.not_isPrefix_append hrest hpart (by decide) hc)

/-- The line that asks for a field. -/
def askLine (field : Field) : String :=
  "assert(v.HasMember(\"" ++ field.identifier ++ "\"));"

/-- The lines that read a field after the one that asks for it. -/
def readLines (field : Field) : List String :=
  ((readField field).drop 2).map LayoutItem.text

/-- A field is asked for once. -/
theorem key?_readLines {field : Field} (h : field.Spellable) :
    ∀ next ∈ readLines field, readScan.key? next = none := by
  have hpoint : isIdentifierPart '.' = false := by decide
  have hspace : isIdentifierPart ' ' = false := isIdentifierPart_of_isLayout rfl
  intro next hnext
  unfold readLines readField at hnext
  cases hrepeated : field.repeated with
  | true =>
      simp only [hrepeated, if_true, block, List.cons_append, List.nil_append, List.drop_succ_cons,
        List.drop_zero, List.map_cons, List.map_nil, LayoutItem.text, List.mem_cons,
        List.not_mem_nil, or_false] at hnext
      rcases hnext with rfl | rfl | rfl | rfl | rfl
      · exact Text.wordAfter?_eq_none (by simp [readScan])
      · exact Text.wordAfter?_eq_none (by simp [readScan])
      · exact Text.wordAfter?_eq_none (by simp [readScan])
      · rw [String.append_assoc, String.append_assoc]
        exact key?_identifier_append h.name (by simp) hpoint (by simp)
      · exact Text.wordAfter?_eq_none (by simp [readScan])
  | false =>
      simp only [hrepeated, Bool.false_eq_true, if_false, List.cons_append, List.nil_append,
        List.drop_succ_cons, List.drop_zero, List.map_cons, List.map_nil, LayoutItem.text,
        List.mem_cons, List.not_mem_nil, or_false] at hnext
      rcases hnext with rfl | rfl
      · exact Text.wordAfter?_eq_none (by simp [readScan])
      · rw [String.append_assoc, String.append_assoc]
        exact key?_identifier_append h.name (by simp) hspace (by simp)

/-- The items of a field are gone through exactly if it is a list. -/
theorem loop_mem_readLines_iff (field : Field) :
    "for (auto&& i : v[\"" ++ field.identifier ++ "\"].GetArray()) \x7b" ∈
        askLine field :: readLines field ↔ field.repeated = true := by
  cases hrepeated : field.repeated with
  | true =>
      have hhead : "for (auto&& i : v[\"" ++ field.identifier ++ "\"].GetArray()) \x7b" =
          "for (auto&& i : " ++ ("v[\"" ++ field.identifier ++ "\"]") ++ ".GetArray()) \x7b" :=
        String.toList_inj.1 (by simp)
      rw [hhead]
      simp [readLines, readField, hrepeated, block]
  | false =>
      -- The other lines do not end with a brace.
      have hends {start stop : String} (hstop : stop.toList.getLast? = some ';') :
          "for (auto&& i : v[\"" ++ field.identifier ++ "\"].GetArray()) \x7b" ≠ start ++ stop := by
        intro heq
        have hlast := congrArg (fun line : String => line.toList.getLast?) heq
        have hnonempty : stop ≠ "" := by
          rintro rfl
          cases hstop
        rw [Text.getLast?_append (by decide), Text.getLast?_append hnonempty, hstop] at hlast
        exact absurd hlast (by decide)
      simp only [readLines, readField, hrepeated, Bool.false_eq_true, if_false, List.cons_append,
        List.nil_append, List.drop_succ_cons, List.drop_zero, List.map_cons, List.map_nil,
        LayoutItem.text, List.mem_cons, List.not_mem_nil, or_false, iff_false, not_or]
      exact ⟨hends (by decide), hends (by decide), hends (by decide)⟩

/-- The keys of the method that reads a JSON value are the names of the fields, and the lists are
those of the fields. -/
theorem keys_getBody {message : Message} (h : message.Spellable) :
    readScan.keys (List.map LayoutItem.text
        (message.fields.flatMap readField ++ [.line "return *this;"])) =
      message.fieldList := by
  have htexts : List.map LayoutItem.text
        (message.fields.flatMap readField ++ [.line "return *this;"]) =
      message.fields.flatMap (fun field => ["// parse " ++ field.identifier] ++
        askLine field :: readLines field) ++ ["return *this;"] := by
    rw [List.map_append, List.map_flatMap]
    rfl
  rw [htexts]
  refine KeyScan.keys_flatMap ?_ (fun field hfield => key?_hasMember (h.fields field hfield).name)
    (fun field hfield => key?_readLines (h.fields field hfield)) ?_ ?_ ?_
  · intro field _ next hnext
    rw [List.mem_singleton.1 hnext]
    exact Text.wordAfter?_eq_none (by simp [readScan])
  · intro next hnext
    rw [List.mem_singleton.1 hnext]
    exact Text.wordAfter?_eq_none (by simp [readScan])
  · intro field _ hrepeated mark hmark
    rw [List.mem_singleton.1 hmark]
    exact (loop_mem_readLines_iff field).2 hrepeated
  · intro field _ hrepeated
    refine ⟨_, List.mem_singleton_self _, fun hmem => ?_, fun other _ hmem => ?_, fun hmem => ?_⟩
    · rw [(loop_mem_readLines_iff field).1 hmem] at hrepeated
      cases hrepeated
    · simpa using congrArg String.toList (List.mem_singleton.1 hmem)
    · simpa using congrArg String.toList (List.mem_singleton.1 hmem)

/-! ## Writing -/

/-- The line that adds a field to a JSON value. -/
def addLine (field : Field) : String :=
  if field.repeated then "v.AddMember(\"" ++ field.identifier ++ "\", array, allocator);"
  else "v.AddMember(\"" ++ field.identifier ++ "\", " ++
    field.type.construction field.identifier ++ ".Move(), allocator);"

/-- The lines that write a field before the one that adds it, from the last one to the first. -/
def linesBeforeAdd (field : Field) : List String :=
  ((writeField field).map LayoutItem.text).reverse.drop (if field.repeated then 2 else 1)

/-- The lines that write a field after the one that adds it. -/
def linesAfterAdd (field : Field) : List String :=
  if field.repeated then ["\x7d"] else []

/-- The lines that write a field, from the last one to the first. -/
theorem reverse_writeField (field : Field) :
    ((writeField field).map LayoutItem.text).reverse =
      linesAfterAdd field ++ addLine field :: linesBeforeAdd field := by
  cases hrepeated : field.repeated with
  | true =>
      simp [linesAfterAdd, addLine, linesBeforeAdd, writeField, hrepeated, block]
  | false => simp [linesAfterAdd, addLine, linesBeforeAdd, writeField, hrepeated]

/-- The line that adds a field has its name as the key. -/
theorem key?_addLine {field : Field} (h : field.Spellable) :
    writeScan.key? (addLine field) = some field.identifier := by
  have hname : '"' ∉ field.identifier.toList := h.name.notMem (by decide)
  unfold addLine
  split
  · exact Text.wordAfter?_eq_some hname (by simp)
  · have hparts : "v.AddMember(\"" ++ field.identifier ++ "\", " ++
          field.type.construction field.identifier ++ ".Move(), allocator);" =
        "v.AddMember(\"" ++ field.identifier ++ ("\", " ++
          field.type.construction field.identifier ++ ".Move(), allocator);") := by
      simp only [String.append_assoc]
    rw [hparts]
    exact Text.wordAfter?_eq_some hname (by simp)

/-- A field is added once. -/
theorem key?_linesBeforeAdd (field : Field) :
    ∀ next ∈ linesBeforeAdd field, writeScan.key? next = none := by
  cases hrepeated : field.repeated with
  | true =>
      simp [linesBeforeAdd, writeField, hrepeated, block, KeyScan.key?, Text.wordAfter?, writeScan]
  | false =>
      simp [linesBeforeAdd, writeField, hrepeated, KeyScan.key?, Text.wordAfter?, writeScan]

/-- The lines that build an array for a field are there if it is a list. -/
theorem listLines_subset_of_repeated {field : Field} (h : field.repeated = true) :
    ∀ mark ∈ writeScan.listLines field.identifier,
      mark ∈ addLine field :: linesBeforeAdd field := by
  simp [writeScan, addLine, linesBeforeAdd, writeField, h, block]

/-- No array is built for a field that is no list. -/
theorem array_notMem_of_not_repeated {field : Field} (h : field.repeated = false) :
    "rapidjson::Value array(rapidjson::kArrayType);" ∉ addLine field :: linesBeforeAdd field := by
  simp [addLine, linesBeforeAdd, writeField, h, ← String.toList_inj]

/-- The keys of the method that builds a JSON value, from the last one to the first, are the names
of the fields, and the lists are those of the fields. -/
theorem keys_toValueBody {message : Message} (h : message.Spellable) :
    writeScan.keys (List.map LayoutItem.text
        (.line "rapidjson::Value v(rapidjson::kObjectType);" ::
          (message.fields.flatMap writeField ++ [.line "return v;"]))).reverse =
      message.fieldList.reverse := by
  have htexts : (List.map LayoutItem.text
        (.line "rapidjson::Value v(rapidjson::kObjectType);" ::
          (message.fields.flatMap writeField ++ [.line "return v;"]))).reverse =
      ["return v;"] ++ (message.fields.reverse.flatMap (fun field =>
        linesAfterAdd field ++ addLine field :: linesBeforeAdd field) ++
          ["rapidjson::Value v(rapidjson::kObjectType);"]) := by
    rw [List.map_cons, List.map_append, List.reverse_cons, List.reverse_append, List.map_flatMap,
      List.reverse_flatMap]
    simp only [Function.comp_def, reverse_writeField]
    rfl
  have hnone {line : String} (hline : ¬ writeScan.start.toList <+: line.toList) :
      ∀ next ∈ [line], writeScan.key? next = none := by
    intro next hnext
    rw [List.mem_singleton.1 hnext]
    exact Text.wordAfter?_eq_none hline
  rw [htexts, KeyScan.keys, Text.stretches_append (hnone (by simp [writeScan])),
    Message.fieldList, ← List.map_reverse]
  refine KeyScan.keys_flatMap (fun field _ => ?_)
    (fun field hfield => key?_addLine (h.fields field (List.mem_reverse.1 hfield)))
    (fun field _ => key?_linesBeforeAdd field) (hnone (by simp [writeScan]))
    (fun field _ hrepeated => listLines_subset_of_repeated hrepeated)
    (fun field _ hrepeated => ⟨_, List.mem_cons_self, array_notMem_of_not_repeated hrepeated, ?_,
      by decide⟩)
  · unfold linesAfterAdd
    split
    · exact hnone (by simp [writeScan])
    · exact List.forall_mem_nil _
  · intro other _
    unfold linesAfterAdd
    split <;> decide

/-! ## Structures -/

/-- The name and the type in the line of a member. -/
theorem readMember_memberLine {field : Field} (h : field.Spellable) :
    readMember (memberLine field.declaredType field.identifier) =
      (field.identifier, field.repeated) := by
  have hspaces : ∀ c ∈ (field.identifier ++ ";").toList, (c != ' ') = true := by
    intro c hmem
    rw [String.toList_append, List.mem_append] at hmem
    refine bne_iff_ne.2 fun hspace => hmem.elim (fun hname => ?_) fun hend => ?_
    · exact h.name.space_notMem (hspace ▸ hname)
    · rw [hspace] at hend
      exact absurd hend (by decide)
  have hlist : (memberLine field.declaredType field.identifier).toList =
      ("    " ++ field.declaredType).toList ++ ' ' :: (field.identifier ++ ";").toList := by
    simp [memberLine]
  have hname : String.ofList ((memberLine field.declaredType field.identifier).toList.rtakeWhile
      (· != ' ')).dropLast = field.identifier := by
    rw [hlist, Text.rtakeWhile_append_cons hspaces (by decide), String.toList_append]
    simp
  have hvector : decide ("    std::vector<".toList <+:
      (memberLine field.declaredType field.identifier).toList) = field.repeated := by
    rw [memberLine, Field.declaredType]
    cases hrepeated : field.repeated with
    | true => simp
    | false =>
        refine decide_eq_false fun hstart => ?_
        -- A type that is no list holds no colon, and neither does a name.
        have hcolon :
            ':' ∉ ("    " ++ field.label ++ (" " ++ (field.identifier ++ ";"))).toList := by
          have hlabel := h.type.colon_notMem
          rw [← h.label] at hlabel
          have hidentifier : ':' ∉ field.identifier.toList := h.name.notMem (by decide)
          simp [hlabel, hidentifier]
        exact hcolon (hstart.subset (by decide))
  rw [readMember, hname, hvector]

/-- The lines of the members stand before the member that owns the document. -/
theorem exists_structLines_eq (message : Message) :
    ∃ more, structLines true message = ("struct " ++ message.identifier ++ " \x7b") ::
      (message.fields.map (fun field => memberLine field.declaredType field.identifier) ++
        memberLine "std::shared_ptr<rapidjson::Document>" sourceDocument :: more) := by
  have hmembers : lines 1 (memberLines message) =
      message.fields.map fun field => memberLine field.declaredType field.identifier := by
    rw [memberLines, lines_map_line]
    refine List.map_congr_left fun field _ => ?_
    rw [indented_one (by simp), memberLine]
    simp only [String.append_assoc]
  obtain ⟨more, hmore⟩ := exists_lines_afterMembers true message
  refine ⟨more ++ ["\x7d;"], ?_⟩
  rw [structLines_eq_cons, lines_append_of_level (nested_memberLines message).level, hmembers,
    hmore, List.append_assoc]
  rfl

/-- The members of a structure are those of the fields. -/
theorem members_structLines {message : Message} (h : message.Spellable) :
    ((structLines true message).tail.takeWhile
        (· != memberLine "std::shared_ptr<rapidjson::Document>" sourceDocument)).map readMember =
      message.fieldList := by
  obtain ⟨more, hmore⟩ := exists_structLines_eq message
  have hne : ∀ line ∈ message.fields.map
      (fun field => memberLine field.declaredType field.identifier),
      (line != memberLine "std::shared_ptr<rapidjson::Document>" sourceDocument) = true := by
    intro line hmem
    obtain ⟨field, hfield, rfl⟩ := List.mem_map.1 hmem
    exact bne_iff_ne.2 (memberLine_ne_lineAfterMembers (h.fields field hfield) true message)
  rw [hmore, List.tail_cons, List.takeWhile_append_of_pos hne, List.takeWhile_cons_of_neg (by simp),
    List.append_nil, List.map_map]
  exact List.map_congr_left fun field hfield => readMember_memberLine (h.fields field hfield)

/-- What the structure of a message says about the fields if its members, the method that reads them
and the method that writes them agree with the message. -/
def StructReading.ofMessage (message : Message) : StructReading where
  name := message.identifier
  members := message.fieldList
  reads := message.fieldList
  writes := message.fieldList

/-- The lines of the structure of a message agree with the message. -/
theorem ofLines_structLines {message : Message} (h : message.Spellable) :
    StructReading.ofLines message.identifier (structLines true message) = .ofMessage message := by
  have hplain := startsPlain_struct h true
  simp only [struct, allTexts_block, allTexts_append] at hplain
  obtain ⟨-, ⟨⟨-, hget⟩, hwriters⟩, -⟩ := hplain
  obtain ⟨-, hgetBody, -⟩ := allTexts_block.1 hget
  obtain ⟨htoValue, -⟩ := allTexts_append.1 (allTexts_cons.1 hwriters).2
  obtain ⟨-, htoValueBody, -⟩ := allTexts_block.1 htoValue
  rw [StructReading.ofLines, members_structLines h,
    methodBody_eq (methodLines_getHead true message) (nested_getBody message) hgetBody,
    keys_getBody h,
    methodBody_eq (methodLines_toValueHead message) (nested_toValueBody message) htoValueBody,
    keys_toValueBody h, List.reverse_reverse]
  rfl

/-- The lines of a structure end at its last line. -/
theorem linesThrough_structLines (serializers : Bool) (message : Message) (more : List String) :
    linesThrough "\x7d;" (structLines serializers message ++ more) =
      structLines serializers message := by
  have hopen : "\x7d;" ∉ ("struct " ++ message.identifier ++ " \x7b") ::
      lines 1 (memberLines message ++ afterMembers serializers message) := by
    intro hmem
    rcases List.mem_cons.1 hmem with hhead | hbody
    · simpa using congrArg String.toList hhead
    · rcases mem_structBody hbody with hblank | hspaces
      · exact absurd hblank (by decide)
      · exact absurd hspaces (by decide)
  rw [structLines_eq_cons, ← List.cons_append, List.append_assoc]
  exact linesThrough_append hopen more

/-- The lines of a structure after its first line are the first line of no structure. -/
theorem structName?_tail {serializers : Bool} {message : Message} {line : String}
    (h : line ∈ (structLines serializers message).tail) : structName? line = none := by
  rw [structLines_eq_cons, List.tail_cons] at h
  refine Text.wordAfter?_eq_none fun hstart => ?_
  rcases List.mem_append.1 h with hbody | hlast
  · rcases mem_structBody hbody with rfl | ⟨rest, hspaces⟩
    · exact absurd hstart (by decide)
    · rw [← hspaces] at hstart
      simp at hstart
  · rw [List.mem_singleton.1 hlast] at hstart
    exact absurd hstart (by decide)

/-- The structures in the lines of the namespace are those of the messages. -/
theorem map_stretches_structs {schema : Schema} (h : schema.Closed) :
    (Text.stretches structName? (lines 0 (structsAndClosing true schema) ++ [""])).map
        (fun (name, block) => StructReading.ofLines name (linesThrough "\x7d;" block)) =
      schema.messages.messages.map StructReading.ofMessage := by
  have hlines : lines 0 (structsAndClosing true schema) ++ [""] =
      schema.messages.messages.flatMap (fun message => [""] ++
        ("struct " ++ message.identifier ++ " \x7b") :: (structLines true message).tail) ++
        ["", "\x7d  // namespace " ++ schema.package, "",
          "#endif  // " ++ includeGuard schema.package, ""] := by
    rw [lines_structsAndClosing, List.append_assoc]
    simp only [structLines_eq_cons, List.tail_cons]
    rfl
  have hheads : ∀ message ∈ schema.messages.messages,
      structName? ("struct " ++ message.identifier ++ " \x7b") = some message.identifier :=
    fun message hmessage =>
      Text.wordAfter?_eq_some (h.spellable message hmessage).name.space_notMem (by decide)
  rw [hlines]
  refine Text.map_stretches_flatMap ?_ hheads (fun message _ line hline => structName?_tail hline)
    ?_ ?_
  · intro message _ line hline
    rw [List.mem_singleton.1 hline]
    rfl
  · intro line hline
    refine Text.wordAfter?_eq_none ?_
    simp only [List.mem_cons, List.not_mem_nil, or_false] at hline
    rcases hline with rfl | rfl | rfl | rfl | rfl <;> simp
  · intro message hmessage more _
    have hblock : ("struct " ++ message.identifier ++ " \x7b") ::
        ((structLines true message).tail ++ more) = structLines true message ++ more := by
      rw [structLines_eq_cons]
      rfl
    show StructReading.ofLines message.identifier (linesThrough "\x7d;" _) = _
    rw [hblock, linesThrough_structLines, ofLines_structLines (h.spellable message hmessage)]

/-- No line of the structures and of what stands after them opens a namespace. -/
theorem not_startsNamespace {serializers : Bool} {schema : Schema} {line : String}
    (h : line ∈ lines 0 (structsAndClosing serializers schema) ++ [""]) :
    ¬ "namespace ".toList <+: line.toList := by
  have hblank : ¬ "namespace ".toList <+: "".toList := by decide
  rw [lines_structsAndClosing] at h
  simp only [List.mem_append, List.mem_cons, List.mem_flatMap, List.not_mem_nil, or_false] at h
  rcases h with (⟨message, -, rfl | hstruct⟩ | rfl | rfl | rfl | rfl) | rfl
  · exact hblank
  · rw [structLines_eq_cons] at hstruct
    simp only [List.mem_cons, List.mem_append, List.not_mem_nil, or_false] at hstruct
    rcases hstruct with rfl | hbody | rfl
    · simp
    · rcases mem_structBody hbody with rfl | ⟨rest, hspaces⟩
      · exact hblank
      · rw [← hspaces]
        simp
    · decide
  · exact hblank
  · simp
  · exact hblank
  · simp
  · exact hblank

/-- The namespace of a header is found after the lines that hold the banner. -/
theorem namespaceBody_text {schema : Schema} (h : schema.Closed) (options : Options) :
    namespaceBody (Text.feedLines (text options schema)) =
      lines 0 (structsAndClosing options.serializers schema) ++ [""] := by
  have hlines : Text.feedLines (text options schema) =
      (lines 0 (preamble schema.package options)).flatMap Text.feedLines ++
        ("namespace " ++ schema.package ++ " \x7b") ::
          (lines 0 (structsAndClosing options.serializers schema) ++ [""]) := by
    have hlayout : layout options schema = preamble schema.package options ++
        .line ("namespace " ++ schema.package ++ " \x7b") ::
          structsAndClosing options.serializers schema := by
      rw [layout_eq, opening, structsAndClosing, List.append_assoc, List.singleton_append]
    have hhead : OneLine ("namespace " ++ schema.package ++ " \x7b") :=
      (OneLine.append (oneLine_literal rfl) h.package.oneLine).append (oneLine_literal rfl)
    rw [text, feedLines_render, hlayout, lines_append_of_level (nested_preamble _ _).level, lines,
      indented_zero, List.flatMap_append, List.flatMap_cons, Text.feedLines_of_oneLine hhead,
      Text.flatMap_feedLines (oneLine_of_mem_lines (oneLine_structsAndClosing h _)),
      List.append_assoc]
    rfl
  rw [hlines, namespaceBody]
  refine Text.rtakeWhile_append_cons (fun line hline => ?_) (by simp)
  rw [Bool.not_eq_true', decide_eq_false_iff_not]
  exact not_startsNamespace hline

end Header

/-! ## The main result -/

/-- If a text is compiled with serializers, scanning the lines of its header finds one structure for
each message, in the order of the table. Its members before the source document, the keys that `Get`
asks for and the keys that `ToValue` adds are the names of the fields in the order of their
declaration, and a member is a vector, is gone through as an array and is built as an array exactly
if the field is repeated. -/
theorem struct_readings_follow_messages (options : Options) (source header : String)
    (hserializers : options.serializers = true)
    (h : (compileHeader options source).result = .ok header) :
    ∃ schema, (compileSchema options source).result = .ok schema ∧
      Header.structReadings header =
        schema.messages.messages.map fun message =>
          { name := message.identifier
            members := message.fields.map fun field => (field.identifier, field.repeated)
            reads := message.fields.map fun field => (field.identifier, field.repeated)
            writes := message.fields.map fun field => (field.identifier, field.repeated) } := by
  obtain ⟨schema, hschema, rfl⟩ := exists_schema_of_compileHeader h
  have hclosed := closed_of_compileSchema hschema
  refine ⟨schema, hschema, ?_⟩
  rw [Header.structReadings, Header.namespaceBody_text hclosed, hserializers]
  exact Header.map_stretches_structs hclosed

/-- Both messages of the text are found in its header, the list as a list. -/
theorem shelfText_struct_readings :
    Options.default.serializers = true ∧
    ∃ header, (compileHeader .default shelfText).result = .ok header ∧
      Header.structReadings header =
        [⟨"Item", [("name", false)], [("name", false)], [("name", false)]⟩,
          ⟨"Shelf", [("items", true), ("width", false)], [("items", true), ("width", false)],
            [("items", true), ("width", false)]⟩] := by
  have hcompiled := compileSchema_shelfText .default
  have hheader := compileHeader_of_compileSchema hcompiled
  refine ⟨rfl, _, hheader, ?_⟩
  obtain ⟨schema, hschema, hreadings⟩ := struct_readings_follow_messages _ _ _ rfl hheader
  obtain rfl := Except.ok.inj (hcompiled.symm.trans hschema)
  rw [hreadings]
  decide

end SchemaCompiler
