import SchemaCompiler.Proofs.HeaderReading
import SchemaCompiler.Proofs.StructMethods

/-!
# Structures up to their words

The structure of a message is made of words and of fixed text. So each of its lines is a line of the
structure of one sample message, with the words of the sample replaced (`Header.renames_struct`).
Names are words, and so are most of the texts that tell the primitive types apart, so the sample has
a field and a list of four types only.

A property of lines that does not depend on words is then a property of all structures as soon as
the sample has it (`Header.forall_struct_of_sample`), and of the sample it can be computed. So this
is the only walk over the lines of a structure. Words make no difference to the characters that
stand in no word (`Text.Renames.filter_eq`), and to whether a text starts with such a character
(`Text.Renames.head?_eq_some_iff`).
-/

namespace SchemaCompiler

/-! ## Texts with other words -/

namespace Text

/-- The first text is the second one with words replaced by other words. -/
inductive Renames : String → String → Prop
  | same (text : String) : Renames text text
  | word {first second : String} (hfirst : IsLetterFirst first.toList)
      (hsecond : IsLetterFirst second.toList) : Renames first second
  | append {first other second more : String} (hfirst : Renames first other)
      (hsecond : Renames second more) : Renames (first ++ second) (other ++ more)

variable {first second : String}

/-- Words make no difference to the characters that stand in no word. -/
theorem Renames.filter_eq (h : Renames first second) {property : Char → Bool}
    (hproperty : ∀ c, property c = true → isIdentifierPart c = false) :
    first.toList.filter property = second.toList.filter property := by
  have hword {word : List Char} (hword : IsLetterFirst word) : word.filter property = [] :=
    List.filter_eq_nil_iff.2 fun c hmem hc => hword.notMem (hproperty c hc) hmem
  induction h with
  | same => rfl
  | word hfirst hsecond => rw [hword hfirst, hword hsecond]
  | append _ _ ihfirst ihsecond =>
      rw [String.toList_append, String.toList_append, List.filter_append, List.filter_append,
        ihfirst, ihsecond]

/-- Words make no difference to how often a character occurs that stands in no word. -/
theorem Renames.count_eq (h : Renames first second) {c : Char}
    (hc : isIdentifierPart c = false) : first.toList.count c = second.toList.count c := by
  have hproperty (other : Char) (hother : (other == c) = true) : isIdentifierPart other = false :=
    beq_iff_eq.1 hother ▸ hc
  rw [List.count_eq_length_filter, List.count_eq_length_filter, h.filter_eq hproperty]

/-- Words are not empty. -/
theorem Renames.toList_eq_nil_iff (h : Renames first second) :
    first.toList = [] ↔ second.toList = [] := by
  have hword {word : List Char} (hword : IsLetterFirst word) : word ≠ [] := by
    rintro rfl
    exact hword
  induction h with
  | same => rfl
  | word hfirst hsecond => exact iff_of_false (hword hfirst) (hword hsecond)
  | append _ _ ihfirst ihsecond =>
      simp only [String.toList_append, List.append_eq_nil_iff, ihfirst, ihsecond]

/-- Words make no difference to whether a text starts with a character that stands in no word. -/
theorem Renames.head?_eq_some_iff (h : Renames first second) {c : Char}
    (hc : isIdentifierPart c = false) :
    first.toList.head? = some c ↔ second.toList.head? = some c := by
  have hword {word : List Char} (hword : IsLetterFirst word) : word.head? ≠ some c :=
    fun hhead => hword.notMem hc (List.mem_of_head? hhead)
  induction h with
  | same => rfl
  | word hfirst hsecond => exact iff_of_false (hword hfirst) (hword hsecond)
  | append hfirst _ ihfirst ihsecond =>
      simp only [String.toList_append, List.head?_append, Option.or_eq_some_iff, ihfirst, ihsecond,
        List.head?_eq_none_iff, hfirst.toList_eq_nil_iff]

end Text

/-! ## Texts of ASCII characters -/

namespace Text

/-- The bytes of a text as characters. -/
def byteChars (text : String) : List Char :=
  text.toByteArray.data.toList.map fun byte => Char.ofNat byte.toNat

/-- A text of ASCII characters that have a property. It is computed from the bytes, since reading a
text back from them takes too many steps. -/
def IsAsciiWith (property : List Char → Prop) (text : String) : Prop :=
  (∀ byte ∈ text.toByteArray.data.toList, byte.toNat < 128) ∧ property (byteChars text)

/-- Whether a text of ASCII characters has a property can be computed if the property can. -/
instance decidableIsAsciiWith (property : List Char → Prop) [DecidablePred property]
    (text : String) : Decidable (IsAsciiWith property text) :=
  decidable_of_iff
    ((text.toByteArray.data.toList.all (·.toNat < 128)) = true ∧ property (byteChars text))
    (and_congr_left' (by simp only [List.all_eq_true, decide_eq_true_eq]))

/-- A character of which every byte is an ASCII character is this character. -/
theorem map_utf8EncodeChar {c : Char} (h : ∀ byte ∈ String.utf8EncodeChar c, byte.toNat < 128) :
    (String.utf8EncodeChar c).map (fun byte => Char.ofNat byte.toNat) = [c] := by
  have hcode : c.val.toNat = c.toNat := rfl
  unfold String.utf8EncodeChar at h ⊢
  dsimp only at h ⊢
  rw [hcode] at h ⊢
  split_ifs at h ⊢ with hone
  · rw [List.map_singleton, UInt8.toNat_ofNat', Nat.mod_eq_of_lt (by omega), Char.ofNat_toNat]
  -- The first of several bytes is no ASCII character.
  all_goals
    have hfirst := h _ List.mem_cons_self
    rw [UInt8.toNat_ofNat'] at hfirst
    omega

/-- The characters of a text of ASCII characters are its bytes. -/
theorem IsAsciiWith.toList {property : List Char → Prop} {text : String}
    (h : IsAsciiWith property text) : property text.toList := by
  obtain ⟨hascii, hproperty⟩ := h
  have hbytes : text.toByteArray.data.toList = text.toList.flatMap String.utf8EncodeChar := by
    rw [← String.utf8Encode_toList, List.utf8Encode, List.data_toByteArray]
  have hchars (chars : List Char)
      (hascii : ∀ byte ∈ chars.flatMap String.utf8EncodeChar, byte.toNat < 128) :
      (chars.flatMap String.utf8EncodeChar).map (fun byte => Char.ofNat byte.toNat) = chars := by
    induction chars with
    | nil => rfl
    | cons c rest ih =>
        rw [List.flatMap_cons, List.forall_mem_append] at hascii
        rw [List.flatMap_cons, List.map_append, map_utf8EncodeChar hascii.1, ih hascii.2]
        rfl
  rw [byteChars, hbytes, hchars _ (hbytes ▸ hascii)] at hproperty
  exact hproperty

end Text

/-! ## Layouts with other words -/

/-- The first line is the second one with words replaced by other words. -/
inductive LayoutItem.Renames : LayoutItem → LayoutItem → Prop
  | line {text other : String} (h : Text.Renames text other) : Renames (line text) (line other)
  | enter {text other : String} (h : Text.Renames text other) : Renames (enter text) (enter other)
  | leave {text other : String} (h : Text.Renames text other) : Renames (leave text) (leave other)

/-- The texts of the lines have other words. -/
theorem LayoutItem.Renames.text {item other : LayoutItem} (h : item.Renames other) :
    Text.Renames item.text other.text := by
  cases h <;> assumption

/-- A line is itself with the same words. -/
theorem LayoutItem.Renames.refl (item : LayoutItem) : item.Renames item := by
  cases item with
  | line text => exact .line (.same text)
  | enter text => exact .enter (.same text)
  | leave text => exact .leave (.same text)

namespace Layout

/-- Every line of the first layout is a line of the second one with words replaced. -/
def RenamesInto (items sample : List LayoutItem) : Prop :=
  ∀ item ∈ items, ∃ other ∈ sample, item.Renames other

variable {items sample first second more other : List LayoutItem}

/-- A layout is itself with the same words. -/
theorem RenamesInto.refl (items : List LayoutItem) : RenamesInto items items :=
  fun item hmem => ⟨item, hmem, .refl item⟩

/-- Nothing is a part of every layout. -/
theorem RenamesInto.nil (sample : List LayoutItem) : RenamesInto [] sample :=
  fun _ hmem => by cases hmem

/-- A layout with words replaced stays one when the sample grows. -/
theorem RenamesInto.mono (h : RenamesInto items sample) (hsample : sample ⊆ more) :
    RenamesInto items more :=
  fun item hmem => (h item hmem).imp fun _ => And.imp_left fun hother => hsample hother

/-- Layouts one after the other. -/
theorem RenamesInto.append (hfirst : RenamesInto first sample) (hsecond : RenamesInto second more) :
    RenamesInto (first ++ second) (sample ++ more) :=
  List.forall_mem_append.2 ⟨hfirst.mono (List.subset_append_left _ _),
    hsecond.mono (List.subset_append_right _ _)⟩

/-- A line before a layout. -/
theorem RenamesInto.cons {item sampleItem : LayoutItem} (hitem : item.Renames sampleItem)
    (h : RenamesInto items sample) : RenamesInto (item :: items) (sampleItem :: sample) :=
  List.forall_mem_cons.2 ⟨⟨sampleItem, List.mem_cons_self, hitem⟩,
    h.mono (List.subset_cons_self _ _)⟩

/-- One line. -/
theorem renamesInto_line {text sampleText : String} (h : Text.Renames text sampleText) :
    RenamesInto [.line text] [.line sampleText] :=
  .cons (.line h) (.nil [])

/-- A block. -/
theorem RenamesInto.block {head sampleHead : String} (hhead : Text.Renames head sampleHead)
    (h : RenamesInto items sample) (tail : String) :
    RenamesInto (block head items tail) (block sampleHead sample tail) :=
  .cons (.enter hhead) (h.append (.refl [.leave tail]))

/-- Lines under a condition. -/
theorem RenamesInto.when (h : RenamesInto items sample) {condition weaker : Bool}
    (hweaker : condition = true → weaker = true) :
    RenamesInto (when condition items) (when weaker sample) := by
  cases condition with
  | false => exact .nil _
  | true => rwa [hweaker rfl]

/-- The layouts of some values, each of which has a value of the sample. -/
theorem renamesInto_flatMap {α : Type} {values samples : List α} {items : α → List LayoutItem}
    (h : ∀ value ∈ values, ∃ other ∈ samples, RenamesInto (items value) (items other)) :
    RenamesInto (values.flatMap items) (samples.flatMap items) := by
  intro item hmem
  obtain ⟨value, hvalue, hitem⟩ := List.mem_flatMap.1 hmem
  obtain ⟨other, hother, hrenames⟩ := h value hvalue
  exact hrenames.mono (fun line hline => List.mem_flatMap.2 ⟨other, hother, hline⟩) item hitem

end Layout

/-! ## The sample -/

/-- A primitive type whose texts have the same form up to words. -/
def Primitive.sample : Primitive → Primitive
  | double | float | bool => double
  | int32 | uint32 | int64 | uint64 => int32
  | string => string

/-- A type whose texts have the same form up to words. -/
def FieldType.sample : FieldType → FieldType
  | primitive type => primitive type.sample
  | message _ => message "A"

/-- A field of the sample. -/
def FieldType.sampleField (type : FieldType) (repeated : Bool) : Field :=
  { identifier := "a", type, repeated }

/-- The field of the sample that stands for a field. -/
def Field.sample (field : Field) : Field :=
  field.type.sample.sampleField field.repeated

/-- A message with a field and a list of each type that stands for others. -/
def Message.sample : Message where
  identifier := "A"
  fields := [.message "A", .primitive .double, .primitive .int32, .primitive .string].flatMap
    fun type : FieldType => [type.sampleField false, type.sampleField true]

/-- The sample has a field for every field. -/
theorem Field.sample_mem (field : Field) : field.sample ∈ Message.sample.fields := by
  refine List.mem_flatMap.2 ⟨field.type.sample, ?_, ?_⟩
  · cases field.type with
    | message name => exact List.mem_cons_self
    | primitive type => cases type <;> decide
  · rw [sample]
    cases field.repeated <;> simp

/-- The name of a field is a word. -/
theorem Field.Spellable.renames_identifier {field : Field} (h : field.Spellable) :
    Text.Renames field.identifier field.sample.identifier :=
  .word h.name.letterFirst (show IsLetterFirst "a".toList by decide)

/-- The name of a message is a word. -/
theorem Message.Spellable.renames_identifier {message : Message} (h : message.Spellable) :
    Text.Renames message.identifier Message.sample.identifier :=
  .word h.name.letterFirst (by decide)

namespace Primitive

/-- The native types of primitive types have one of three forms. -/
theorem renames_nativeType (type : Primitive) :
    Text.Renames type.nativeType type.sample.nativeType := by
  have hbits {word : String} (hword : IsLetterFirst word.toList) :
      Text.Renames (word ++ "_t") ("int32" ++ "_t") :=
    .append (.word hword (by decide)) (.same _)
  cases type with
  | double | string => exact .same _
  | float | bool => exact .word (by decide) (by decide)
  | int32 => exact hbits (show IsLetterFirst "int32".toList by decide)
  | uint32 => exact hbits (show IsLetterFirst "uint32".toList by decide)
  | int64 => exact hbits (show IsLetterFirst "int64".toList by decide)
  | uint64 => exact hbits (show IsLetterFirst "uint64".toList by decide)

/-- The accessors of primitive types are words. -/
theorem renames_accessor (type : Primitive) : Text.Renames type.accessor type.sample.accessor := by
  cases type <;> exact .word (by decide) (by decide)

end Primitive

namespace FieldType

variable {type : FieldType} {base sampleBase : String}

/-- The name of a message type is a word. -/
theorem Spellable.renames_name {name : String} (h : (message name).Spellable) :
    Text.Renames name "A" :=
  .word (h name rfl).letterFirst (by decide)

/-- The native type of a field that can be spelled has the form of the sample. -/
theorem Spellable.renames_nativeType (h : type.Spellable) :
    Text.Renames type.nativeType type.sample.nativeType := by
  cases type with
  | primitive type => exact type.renames_nativeType
  | message name => exact h.renames_name

/-- The test of a type has the form of the sample. -/
theorem renames_predicate (type : FieldType) :
    Text.Renames type.predicate type.sample.predicate := by
  cases type with
  | primitive type => exact .append (.same _) type.renames_accessor
  | message name => exact .same _

/-- Taking a member out of a value has the form of the sample. -/
theorem Spellable.renames_extraction (h : type.Spellable) (hbase : Text.Renames base sampleBase) :
    Text.Renames (type.extraction base) (type.sample.extraction sampleBase) := by
  cases type with
  | primitive type =>
      exact ((hbase.append (.same _)).append type.renames_accessor).append (.same _)
  | message name => exact ((h.renames_name.append (.same _)).append hbase).append (.same _)

/-- Building a value from a member has the form of the sample. -/
theorem renames_construction (type : FieldType) (hbase : Text.Renames base sampleBase) :
    Text.Renames (type.construction base) (type.sample.construction sampleBase) := by
  have hcast (type : Primitive) : Text.Renames
      ("rapidjson::Value(static_cast<" ++ type.nativeType ++ ">(" ++ base ++ "))")
      ("rapidjson::Value(static_cast<" ++ type.sample.nativeType ++ ">(" ++ sampleBase ++ "))") :=
    .append (.append (.append (.append (.same _) type.renames_nativeType) (.same _)) hbase)
      (.same _)
  cases type with
  | message name => exact hbase.append (.same _)
  | primitive type =>
      cases type with
      | string => exact .append (.append (.same _) hbase) (.same _)
      | _ => exact hcast _

end FieldType

/-- The type of a member has the form of the sample. -/
theorem Field.Spellable.renames_declaredType {field : Field} (h : field.Spellable) :
    Text.Renames field.declaredType field.sample.declaredType := by
  have hnative := h.type.renames_nativeType
  show Text.Renames field.declaredType (if field.repeated then
    "std::vector<" ++ field.type.sample.nativeType ++ ">" else field.type.sample.nativeType)
  rw [declaredType, h.label]
  split
  · exact .append (.append (.same _) hnative) (.same _)
  · exact hnative

/-! ## Tidy lines -/

/-- The characters that end a line or belong to a block. -/
def isLineMark (c : Char) : Bool :=
  c == '\n' || c == '\x7b' || c == '\x7d'

namespace LayoutItem

/-- The marks that tell what a line does to the indentation. -/
def marks : LayoutItem → List Char
  | line _ => []
  | enter _ => ['\x7b']
  | leave _ => ['\x7d']

/-- A text that starts with no space and has the given marks. -/
def TidyText (marks text : List Char) : Prop :=
  text.head? ≠ some ' ' ∧ text.filter isLineMark = marks

/-- Whether a text is tidy can be computed. -/
instance decidableTidyText (marks : List Char) : DecidablePred (TidyText marks) :=
  fun text => inferInstanceAs (Decidable (text.head? ≠ some ' ' ∧ text.filter isLineMark = marks))

/-- A line of generated code: its indentation is not part of its text, it has no line feed, and a
brace opens exactly where a level is entered and closes exactly where one is left. -/
def Tidy (item : LayoutItem) : Prop :=
  TidyText item.marks item.text.toList

/-- Lines with other words do the same to the indentation. -/
theorem Renames.marks_eq {item other : LayoutItem} (h : item.Renames other) :
    item.marks = other.marks := by
  cases h <;> rfl

/-- Lines with other words are tidy. -/
theorem Renames.tidy {item other : LayoutItem} (h : item.Renames other) (hother : other.Tidy) :
    item.Tidy := by
  have hmark (c : Char) (hc : isLineMark c = true) : isIdentifierPart c = false := by
    simp only [isLineMark, Bool.or_eq_true, beq_iff_eq] at hc
    rcases hc with (rfl | rfl) | rfl <;> decide
  obtain ⟨hstart, hmarks⟩ := hother
  refine ⟨mt (h.text.head?_eq_some_iff (isIdentifierPart_of_isLayout rfl)).1 hstart, ?_⟩
  rw [h.text.filter_eq hmark, h.marks_eq, hmarks]

/-- A tidy line has no line feed. -/
theorem Tidy.oneLine {item : LayoutItem} (h : item.Tidy) : OneLine item.text := by
  have hmarks : '\n' ∉ item.marks := by cases item <;> simp [marks]
  rw [← h.2] at hmarks
  exact fun hmem => hmarks (List.mem_filter.2 ⟨hmem, by decide⟩)

/-- A tidy line has as many of a mark as its kind tells. -/
theorem Tidy.count_eq {item : LayoutItem} (h : item.Tidy) {c : Char} (hc : isLineMark c = true) :
    item.text.toList.count c = item.marks.count c := by
  rw [← h.2, List.count_filter hc]

end LayoutItem

/-! ## The walk -/

namespace Header

open Layout Text

/-- The lines that read a field are those of the sample. -/
theorem renames_readField {field : Field} (h : field.Spellable) :
    RenamesInto (readField field) (readField field.sample) := by
  have hname := h.renames_identifier
  have hvalue : Renames ("v[\"" ++ field.identifier ++ "\"]")
      ("v[\"" ++ field.sample.identifier ++ "\"]") :=
    .append (.append (.same _) hname) (.same _)
  have hitem := h.type.renames_extraction (.same "i")
  have hmember := h.type.renames_extraction hvalue
  have hpredicate := field.type.renames_predicate
  have hrepeated : field.sample.repeated = field.repeated := rfl
  have htype : field.sample.type = field.type.sample := rfl
  unfold readField
  rw [hrepeated, htype]
  refine .append (.cons (.line (.append (.same _) hname))
    (renamesInto_line (.append (.append (.same _) hname) (.same _)))) ?_
  cases field.repeated with
  | true =>
      refine .cons (.line (.append (.append (.same _) hvalue) (.same _))) (.block ?_ ?_ _)
      · exact .append (.append (.same _) hvalue) (.same _)
      · exact .cons (.line (.append (.append (.same _) hpredicate) (.same _))) (renamesInto_line
          (.append (.append (.append hname (.same _)) hitem) (.same _)))
  | false =>
      refine .cons (.line ?_) (renamesInto_line ?_)
      · exact .append (.append (.append (.append (.same _) hvalue) (.same _)) hpredicate) (.same _)
      · exact .append (.append (.append hname (.same _)) hmember) (.same _)

/-- The lines that write a field are those of the sample. -/
theorem renames_writeField {field : Field} (h : field.Spellable) :
    RenamesInto (writeField field) (writeField field.sample) := by
  have hname := h.renames_identifier
  have hitem := field.type.renames_construction (.same "i")
  have hmember := field.type.renames_construction hname
  have hrepeated : field.sample.repeated = field.repeated := rfl
  have htype : field.sample.type = field.type.sample := rfl
  unfold writeField
  rw [hrepeated, htype]
  refine .cons (.line (.append (.same _) hname)) ?_
  cases field.repeated with
  | true =>
      refine .block (.same _) (.cons (.refl _) (.append (.block ?_ (renamesInto_line ?_) _)
        (renamesInto_line ?_))) _
      · exact .append (.append (.same _) hname) (.same _)
      · exact .append (.append (.same _) hitem) (.same _)
      · exact .append (.append (.same _) hname) (.same _)
  | false =>
      refine renamesInto_line ?_
      exact .append (.append (.append (.append (.same _) hname) (.same _)) hmember) (.same _)

variable {message : Message}

/-- The lines of a structure are those of the sample, which can have serializers in any case. -/
theorem renames_struct (h : message.Spellable) {serializers weaker : Bool}
    (hweaker : serializers = true → weaker = true) :
    RenamesInto (struct serializers message) (struct weaker Message.sample) := by
  have hname := h.renames_identifier
  have hhead (rest : String) : Renames (message.identifier ++ rest)
      (Message.sample.identifier ++ rest) := .append hname (.same rest)
  have hmembers : RenamesInto (members serializers message) (members weaker Message.sample) := by
    refine .append (.append (fun item hmem => ?_) ((RenamesInto.refl _).when hweaker))
      ((RenamesInto.refl _).when fun _ => rfl)
    obtain ⟨field, hfield, rfl⟩ := List.mem_map.1 hmem
    have hspellable := h.fields field hfield
    exact ⟨_, List.mem_map_of_mem field.sample_mem, .line (.append (.append (.append
      hspellable.renames_declaredType (.same _)) hspellable.renames_identifier) (.same _))⟩
  have hreads := renamesInto_flatMap fun field hfield =>
    ⟨field.sample, field.sample_mem, renames_readField (h.fields field hfield)⟩
  have hwrites := renamesInto_flatMap fun field hfield =>
    ⟨field.sample, field.sample_mem, renames_writeField (h.fields field hfield)⟩
  have hparse : RenamesInto (parseMethod message) (parseMethod Message.sample) :=
    .block (hhead _) (.refl _) _
  have hfromString : RenamesInto (fromStringMethod message) (fromStringMethod Message.sample) :=
    .block (hhead _) (.refl _) _
  have hget : RenamesInto (getMethod message) (getMethod Message.sample) :=
    .block (hhead _) (hreads.append (.refl _)) _
  have htoValue : RenamesInto (toValueMethod message) (toValueMethod Message.sample) :=
    .block (.same _) (.cons (.refl _) (hwrites.append (.refl _))) _
  have hwriters : RenamesInto (writeMethods message) (writeMethods Message.sample) :=
    .cons (.refl _) (htoValue.append (.refl _))
  refine .block (.append (.append (.same _) hname) (.same _)) ?_ _
  exact ((((hmembers.append hparse).append (.refl _)).append
    ((hfromString.append (.refl _)).when hweaker)).append hget).append (hwriters.when hweaker)

/-- A property of lines that does not depend on words holds of the lines of a structure if it holds
of those of the sample. -/
theorem forall_struct_of_sample (property : LayoutItem → Prop) (h : message.Spellable)
    {serializers weaker : Bool} (hweaker : serializers = true → weaker = true)
    (hrenames : ∀ {item other : LayoutItem}, item.Renames other → property other → property item)
    (hsample : ∀ item ∈ struct weaker Message.sample, property item) :
    ∀ item ∈ struct serializers message, property item := by
  intro item hmem
  obtain ⟨other, hother, hitem⟩ := renames_struct h hweaker item hmem
  exact hrenames hitem (hsample other hother)

/-- The lines of a structure are tidy. -/
theorem tidy_struct (h : message.Spellable) (serializers : Bool) :
    ∀ item ∈ struct serializers message, item.Tidy := by
  have hsample : ∀ item ∈ struct true Message.sample,
      IsAsciiWith (LayoutItem.TidyText item.marks) item.text := by
    decide +kernel
  exact forall_struct_of_sample LayoutItem.Tidy h (fun _ => rfl) LayoutItem.Renames.tidy
    fun item hitem => (hsample item hitem).toList

end Header

end SchemaCompiler
