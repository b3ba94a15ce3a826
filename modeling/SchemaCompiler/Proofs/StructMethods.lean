import SchemaCompiler.Proofs.HeaderBlocks

/-!
# The methods of a structure

The lines of a structure are found in those of the header (`Header.exists_structLines`), and the
lines of its methods in those of the structure: `Header.methodLines` goes from the head of a method
to the first brace that closes one level. `Header.methodLines_parseHead`,
`Header.methodLines_getHead` and `Header.methodLines_toValueHead` say that this gives the whole
method and nothing else.

No name can imitate a head or a closing brace. A nested layout never stands to the left of the depth
where it starts (`Layout.Nested.indents`), so the body of a method has no line at the depth of its
head, and the members before the methods end with a semicolon.
-/

namespace SchemaCompiler

/-- The text of a line without its indentation. -/
@[simp]
def LayoutItem.text : LayoutItem → String
  | line text => text
  | enter text => text
  | leave text => text

/-- A text ends as its last part does. -/
theorem Text.getLast?_append {last : String} (h : last ≠ "") (start : String) :
    (start ++ last).toList.getLast? = last.toList.getLast? := by
  rw [String.toList_append, List.getLast?_append_of_ne_nil]
  exact fun hnil => h (String.toList_inj.1 hnil)

namespace Layout

variable {first second : List LayoutItem}

/-- A line at some depth is empty or starts with the spaces of that depth. -/
theorem indented_indents (depth : Nat) (text : String) :
    indented depth text = "" ∨ List.replicate (4 * depth) ' ' <+: (indented depth text).toList := by
  unfold indented
  split
  · exact .inl rfl
  · refine .inr ⟨text.toList, ?_⟩
    rw [String.toList_append, String.toList_ofList]

/-- No line of a nested layout stands to the left of the depth where the layout starts. -/
theorem Nested.indents (h : Nested first) (depth : Nat) {line : String}
    (hline : line ∈ lines depth first) :
    line = "" ∨ List.replicate (4 * depth) ' ' <+: line.toList := by
  induction h generalizing depth with
  | nil => cases hline
  | line text _ ih =>
      rcases List.mem_cons.1 hline with rfl | hrest
      · exact indented_indents depth text
      · exact ih depth hrest
  | block head tail hbody _ ihbody ih =>
      rw [lines_append_of_level (hbody.only_block head tail).level,
        lines_block hbody.level] at hline
      rcases List.mem_append.1 hline with hblock | hrest
      · rcases List.mem_cons.1 hblock with rfl | hinner
        · exact indented_indents depth head
        · rcases List.mem_append.1 hinner with hbodyLine | htail
          · -- The body is one level deeper.
            have hspaces :
                List.replicate (4 * depth) ' ' <+: List.replicate (4 * (depth + 1)) ' ' :=
              ⟨List.replicate 4 ' ', List.replicate_append_replicate⟩
            exact (ihbody (depth + 1) hbodyLine).imp_right hspaces.trans
          · obtain rfl := List.mem_singleton.1 htail
            exact indented_indents depth tail
      · exact ih depth hrest

/-- Every line of a layout is the text of one of its items at some depth. -/
theorem exists_of_mem_lines {depth : Nat} {items : List LayoutItem} {line : String}
    (h : line ∈ lines depth items) : ∃ item ∈ items, ∃ level, line = indented level item.text := by
  induction items generalizing depth with
  | nil => cases h
  | cons item rest ih =>
      have hlines : ∃ level next, lines depth (item :: rest) =
          indented level item.text :: lines next rest := by
        cases item <;> exact ⟨_, _, rfl⟩
      obtain ⟨level, next, hcons⟩ := hlines
      rw [hcons] at h
      rcases List.mem_cons.1 h with rfl | hrest
      · exact ⟨item, List.mem_cons_self, level, rfl⟩
      · obtain ⟨other, hother, hline⟩ := ih hrest
        exact ⟨other, List.mem_cons_of_mem item hother, hline⟩

/-- A line ends as its text does. -/
theorem getLast?_indented (depth : Nat) (text : String) :
    (indented depth text).toList.getLast? = text.toList.getLast? := by
  unfold indented
  split
  · next hempty => rw [hempty]
  · next htext => exact Text.getLast?_append htext _

/-- One level of indentation is four spaces. -/
theorem indented_one {text : String} (h : text ≠ "") : indented 1 text = "    " ++ text :=
  if_neg h

/-- Every line of a layout has a text with the given property. -/
def AllTexts (property : String → Prop) (items : List LayoutItem) : Prop :=
  ∀ item ∈ items, property item.text

/-- Whether all texts have a property that can be computed can be computed. -/
instance decidableAllTexts (property : String → Prop) [DecidablePred property]
    (items : List LayoutItem) : Decidable (AllTexts property items) :=
  inferInstanceAs (Decidable (∀ item ∈ items, property item.text))

section

variable {property : String → Prop} {first second body : List LayoutItem}

/-- A layout without lines has every property. -/
@[simp]
theorem allTexts_nil : AllTexts property [] :=
  fun _ hmem => by cases hmem

/-- A property of the texts of a layout with a first line. -/
@[simp]
theorem allTexts_cons {item : LayoutItem} :
    AllTexts property (item :: first) ↔ property item.text ∧ AllTexts property first :=
  List.forall_mem_cons

/-- A property of the texts of two layouts. -/
@[simp]
theorem allTexts_append :
    AllTexts property (first ++ second) ↔ AllTexts property first ∧ AllTexts property second :=
  List.forall_mem_append

/-- A property of the texts of a block. -/
@[simp]
theorem allTexts_block {head tail : String} :
    AllTexts property (block head body tail) ↔
      property head ∧ AllTexts property body ∧ property tail := by
  simp [block, allTexts_cons, allTexts_append, allTexts_nil, LayoutItem.text]

/-- Lines under a condition have a property if they have it under the condition. -/
theorem AllTexts.when {condition : Bool} (h : condition = true → AllTexts property first) :
    AllTexts property (Layout.when condition first) := by
  cases condition with
  | true => exact h rfl
  | false => exact allTexts_nil

/-- A property of the texts of the layouts of some values. -/
theorem allTexts_flatMap {α : Type} {values : List α} {items : α → List LayoutItem}
    (h : ∀ value ∈ values, AllTexts property (items value)) :
    AllTexts property (values.flatMap items) := by
  intro item hmem
  obtain ⟨value, hvalue, hitem⟩ := List.mem_flatMap.1 hmem
  exact h value hvalue item hitem

/-- A property of plain lines. -/
theorem allTexts_map_line {α : Type} {values : List α} {text : α → String}
    (h : ∀ value ∈ values, property (text value)) :
    AllTexts property (values.map fun value => .line (text value)) := by
  intro item hmem
  obtain ⟨value, hvalue, rfl⟩ := List.mem_map.1 hmem
  exact h value hvalue

end

end Layout

namespace Header

open Layout

/-- The lines of the structure of a message. -/
def structLines (serializers : Bool) (message : Message) : List String :=
  lines 0 (struct serializers message)

/-- The first lines up to the given one. -/
def linesThrough (last : String) (lines : List String) : List String :=
  lines.take (lines.idxOf last + 1)

/-- The lines of a method among the lines of a structure: from its head to the first brace that
closes one level. -/
def methodLines (head : String) (block : List String) : List String :=
  linesThrough "    \x7d" (block.dropWhile (· != "    " ++ head))

/-- The head of the method that reads the members from a text and forgets the text. -/
def parseHead (name : String) : String :=
  name ++ "& Parse(const char* str) \x7b"

/-- The head of the method that reads the members from a text and keeps the document. -/
def fromStringHead (name : String) : String :=
  name ++ "& FromString(const char* str) \x7b"

/-- The head of the method that reads the members from a JSON value. -/
def getHead (name : String) : String :=
  name ++ "& Get(const rapidjson::Value& v) \x7b"

/-- The head of the method that builds a JSON value from the members. -/
def toValueHead : String :=
  "rapidjson::Value ToValue(rapidjson::Document::AllocatorType& allocator) const \x7b"

/-- The lines of a structure before the method that reads the members from a JSON value. -/
def linesBeforeGet (serializers : Bool) (message : Message) : List String :=
  ("struct " ++ message.identifier ++ " \x7b") ::
    (lines 1 (members serializers message) ++ (lines 1 (parseMethod message) ++
      ("" :: lines 1 (when serializers (fromStringMethod message ++ [.line ""])))))

/-- The lines of a structure, part by part. -/
theorem structLines_eq (serializers : Bool) (message : Message) :
    structLines serializers message =
      linesBeforeGet serializers message ++ (lines 1 (getMethod message) ++
        (lines 1 (when serializers (writeMethods message)) ++ ["\x7d;"])) := by
  have hmembers : Nested (members serializers message) :=
    ((nested_memberLines message).append ((nested_line _).when _)).append ((nested_line "").when _)
  have hfromString := (nested_fromStringPart message).when serializers
  have hbody : Level (members serializers message ++
      (parseMethod message ++ ([.line ""] ++
        (when serializers (fromStringMethod message ++ [.line ""]) ++
          (getMethod message ++ when serializers (writeMethods message)))))) :=
    (hmembers.append ((nested_parseMethod message).append ((nested_line "").append
      (hfromString.append ((nested_getMethod message).append
        ((nested_writeMethods message).when serializers)))))).level
  unfold structLines struct
  simp only [List.append_assoc]
  rw [lines_block hbody, lines_append_of_level hmembers.level,
    lines_append_of_level (nested_parseMethod message).level,
    lines_append_of_level (nested_line "").level, lines_append_of_level hfromString.level,
    lines_append_of_level (nested_getMethod message).level, indented_zero, indented_zero]
  simp only [linesBeforeGet, List.append_assoc, List.cons_append]
  rfl

/-- The first lines up to one that is not before them. -/
theorem linesThrough_append {last : String} {before : List String} (h : last ∉ before)
    (after : List String) : linesThrough last (before ++ last :: after) = before ++ [last] := by
  rw [linesThrough, List.idxOf_append_of_notMem h, List.idxOf_cons_self, List.append_cons]
  exact List.take_left' (by simp)

/-- The lines of the structure of a message stand among the lines of the header. -/
theorem exists_structLines {schema : Schema} {message : Message}
    (h : message ∈ schema.messages.messages) (options : Options) :
    ∃ before after,
      lines 0 (layout options schema) =
        before ++ structLines options.serializers message ++ after := by
  obtain ⟨earlier, later, hmessages⟩ := List.append_of_mem h
  have hsplit : layout options schema =
      (opening options schema ++ (earlier.flatMap
          fun message => .line "" :: struct options.serializers message) ++ [.line ""]) ++
        (struct options.serializers message ++ (later.flatMap
          (fun message => .line "" :: struct options.serializers message) ++ closing schema)) := by
    rw [layout_eq, hmessages]
    simp
  have hbefore := ((nested_opening options schema).append
    (nested_structs options.serializers earlier)).append (.line "" .nil)
  rw [hsplit, lines_append_of_level hbefore.level,
    lines_append_of_level (nested_struct options.serializers message).level, ← List.append_assoc]
  exact ⟨_, _, rfl⟩

/-- A method is found among lines of which none before it is its head. -/
theorem methodLines_append {head : String} {body : List LayoutItem} {before after : List String}
    (hhead : head.toList.getLast? = some '\x7b') (hbody : Nested body)
    (hbefore : "    " ++ head ∉ before) :
    methodLines head (before ++ (lines 1 (block head body "\x7d") ++ after)) =
      lines 1 (block head body "\x7d") := by
  have hempty : head ≠ "" := by
    rintro rfl
    cases hhead
  -- No line before the last one closes the method.
  have hopen : "    \x7d" ∉ indented 1 head :: lines 2 body := by
    intro hmem
    rcases List.mem_cons.1 hmem with hfirst | hinner
    · have hlast := congrArg (fun line : String => line.toList.getLast?) hfirst
      rw [getLast?_indented, hhead] at hlast
      cases hlast
    · rcases hbody.indents 2 hinner with hnone | hspaces
      · exact absurd hnone (by decide)
      · exact absurd hspaces (by decide)
  have hstart : (before ++ (lines 1 (block head body "\x7d") ++ after)).dropWhile
      (· != "    " ++ head) = lines 1 (block head body "\x7d") ++ after := by
    rw [List.dropWhile_append_of_pos fun line hmem => ?_, lines_block hbody.level,
      indented_one hempty]
    · simp
    · exact bne_iff_ne.2 fun heq => hbefore (heq ▸ hmem)
  have hclose : indented 1 "\x7d" = "    \x7d" := rfl
  rw [methodLines, hstart, lines_block hbody.level, ← List.cons_append, List.append_assoc, hclose]
  exact linesThrough_append hopen after

/-- The head of a method is no line of a layout without such an ending. -/
theorem head_notMem_lines {head : String} {depth : Nat} {items : List LayoutItem}
    (hhead : head.toList.getLast? = some '\x7b')
    (h : ∀ item ∈ items, item.text.toList.getLast? ≠ some '\x7b') :
    "    " ++ head ∉ lines depth items := by
  intro hmem
  obtain ⟨item, hitem, level, hline⟩ := exists_of_mem_lines hmem
  have hempty : head ≠ "" := by
    rintro rfl
    cases hhead
  have hlast := congrArg (fun line : String => line.toList.getLast?) hline
  rw [← indented_one hempty, getLast?_indented, getLast?_indented, hhead] at hlast
  exact h item hitem hlast.symm

/-- The head of a method is no line of another method if it is none of its body. -/
theorem head_notMem_lines_block {head other : String} {body : List LayoutItem}
    (hhead : head.toList.getLast? = some '\x7b') (hne : head ≠ other) (hbody : Nested body)
    (h : "    " ++ head ∉ lines 2 body) :
    "    " ++ head ∉ lines 1 (block other body "\x7d") := by
  rw [lines_block hbody.level]
  intro hmem
  rcases List.mem_cons.1 hmem with hfirst | hinner
  · by_cases hempty : other = ""
    · rw [hempty] at hfirst
      simpa [indented] using congrArg String.toList hfirst
    · rw [indented_one hempty, String.append_right_inj] at hfirst
      exact hne hfirst
  · rcases List.mem_append.1 hinner with hline | hlast
    · exact h hline
    · have hclose : "    " ++ head ∈ lines 1 [.line "\x7d"] := hlast
      exact head_notMem_lines hhead (by decide) hclose

/-- A head that starts with no space is no line of a body, which is one level deeper. -/
theorem head_notMem_lines_body {head : String} {body : List LayoutItem}
    (hhead : head.toList.head? ≠ some ' ') (hbody : Nested body) :
    "    " ++ head ∉ lines 2 body := by
  intro hmem
  rcases hbody.indents 2 hmem with hnone | ⟨rest, hspaces⟩
  · simpa using congrArg String.toList hnone
  · rw [String.toList_append] at hspaces
    have hsplit : "    ".toList ++ (List.replicate 4 ' ' ++ rest) = "    ".toList ++ head.toList :=
      hspaces
    rw [← List.append_cancel_left hsplit] at hhead
    exact hhead rfl

/-- The first line of a structure is not indented. -/
theorem head_ne_structHead (name head : String) :
    "    " ++ head ≠ "struct " ++ name ++ " \x7b" := by
  intro heq
  have hfirst := congrArg (fun line : String => line.toList.head?) heq
  simp at hfirst

/-- No member ends as the head of a method does. -/
theorem getLast?_members (serializers : Bool) (message : Message) :
    ∀ item ∈ members serializers message, item.text.toList.getLast? ≠ some '\x7b' := by
  intro item hmem
  rcases List.mem_append.1 hmem with hmember | hblank
  · rcases List.mem_append.1 hmember with hfield | hdocument
    · obtain ⟨field, -, rfl⟩ := List.mem_map.1 hfield
      rw [LayoutItem.text, Text.getLast?_append (by decide)]
      decide
    · cases serializers with
      | true =>
          obtain rfl := List.mem_singleton.1 hdocument
          decide
      | false => cases hdocument
  · unfold Layout.when at hblank
    split at hblank
    · obtain rfl := List.mem_singleton.1 hblank
      decide
    · cases hblank

/-- A head that is none of the methods before the one that reads a JSON value is no line before
it. -/
theorem head_notMem_linesBeforeGet {head : String} {message : Message}
    (hhead : head.toList.getLast? = some '\x7b') (hparse : head ≠ parseHead message.identifier)
    (hfromString : head ≠ fromStringHead message.identifier) (serializers : Bool) :
    "    " ++ head ∉ linesBeforeGet serializers message := by
  have hbody {items : List LayoutItem}
      (hitems : ∀ item ∈ items, item.text.toList.getLast? ≠ some '\x7b') :
      "    " ++ head ∉ lines 2 items := head_notMem_lines hhead hitems
  intro hmem
  simp only [linesBeforeGet, List.mem_cons, List.mem_append] at hmem
  rcases hmem with hstruct | hmember | hmethod | hblank | hkept
  · exact head_ne_structHead _ _ hstruct
  · exact head_notMem_lines hhead (getLast?_members serializers message) hmember
  · exact head_notMem_lines_block hhead hparse (.line _ (.line _ (.line _ (.line _ .nil))))
      (hbody (by decide)) hmethod
  · simpa using congrArg String.toList hblank
  · cases serializers with
    | false => cases hkept
    | true =>
        have hkept : "    " ++ head ∈ lines 1 (fromStringMethod message ++ [.line ""]) := hkept
        rw [lines_append_of_level (nested_fromStringMethod message).level] at hkept
        rcases List.mem_append.1 hkept with hmethod | hblank
        · exact head_notMem_lines_block hhead hfromString
            (.line _ (.line _ (.line _ (.line _ .nil)))) (hbody (by decide)) hmethod
        · exact head_notMem_lines hhead (by decide) hblank

/-- The method that reads the members from a text is found in a structure with and without
serializers. -/
theorem methodLines_parseHead (serializers : Bool) (message : Message) :
    methodLines (parseHead message.identifier) (structLines serializers message) =
      lines 1 (parseMethod message) := by
  have hhead : (parseHead message.identifier).toList.getLast? = some '\x7b' := by simp [parseHead]
  rw [structLines_eq, linesBeforeGet, ← List.cons_append, List.append_assoc, List.append_assoc]
  refine methodLines_append hhead (.line _ (.line _ (.line _ (.line _ .nil)))) fun hmem => ?_
  rcases List.mem_cons.1 hmem with hstruct | hmember
  · exact head_ne_structHead _ _ hstruct
  · exact head_notMem_lines hhead (getLast?_members serializers message) hmember

/-- The method that reads the members from a JSON value is found in a structure with and without
serializers. -/
theorem methodLines_getHead (serializers : Bool) (message : Message) :
    methodLines (getHead message.identifier) (structLines serializers message) =
      lines 1 (getMethod message) := by
  have hhead : (getHead message.identifier).toList.getLast? = some '\x7b' := by simp [getHead]
  have hother {rest other : String} (hne : rest ≠ other) :
      message.identifier ++ rest ≠ message.identifier ++ other :=
    fun heq => hne ((String.append_right_inj _).1 heq)
  rw [structLines_eq]
  exact methodLines_append hhead (nested_getBody message)
    (head_notMem_linesBeforeGet hhead (hother (by decide)) (hother (by decide)) serializers)

/-- The method that builds a JSON value is found in a structure with serializers. -/
theorem methodLines_toValueHead (message : Message) :
    methodLines toValueHead (structLines true message) = lines 1 (toValueMethod message) := by
  have hhead : toValueHead.toList.getLast? = some '\x7b' := by decide
  -- The other heads end with a parameter list.
  have hother {rest : String} (hrest : [')', ' ', '\x7b'] <:+ rest.toList) :
      toValueHead ≠ message.identifier ++ rest := by
    intro heq
    have hends : [')', ' ', '\x7b'] <:+ toValueHead.toList := by
      rw [heq, String.toList_append]
      exact hrest.trans (List.suffix_append _ _)
    exact absurd hends (by decide)
  have hget : "    " ++ toValueHead ∉ lines 1 (getMethod message) :=
    head_notMem_lines_block hhead (hother (by decide)) (nested_getBody message)
      (head_notMem_lines_body (by decide) (nested_getBody message))
  have hwriters : ∃ after, lines 1 (when true (writeMethods message)) =
      "" :: (lines 1 (toValueMethod message) ++ after) := by
    refine ⟨_, congrArg ("" :: ·) (lines_append_of_level (nested_toValueMethod message).level 1 _)⟩
  obtain ⟨after, hafter⟩ := hwriters
  have hsplit : structLines true message =
      (linesBeforeGet true message ++ (lines 1 (getMethod message) ++ [""])) ++
        (lines 1 (toValueMethod message) ++ (after ++ ["\x7d;"])) := by
    rw [structLines_eq, hafter]
    simp
  rw [hsplit]
  refine methodLines_append hhead (nested_toValueBody message) fun hmem => ?_
  simp only [List.mem_append, List.mem_singleton] at hmem
  rcases hmem with hbefore | hmethod | hblank
  · exact head_notMem_linesBeforeGet hhead (hother (by decide)) (hother (by decide)) true hbefore
  · exact hget hmethod
  · simpa using congrArg String.toList hblank

end Header

end SchemaCompiler
