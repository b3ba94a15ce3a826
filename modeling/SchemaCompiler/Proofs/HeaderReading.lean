import SchemaCompiler.Proofs.ClosedSchema

/-!
# A header determines its schema

Two compiled schemas with the same header are the same. The header is read from its start to its
end, and each part is a lemma of one form: where a part and what follows it are the same text as
another part of its kind and what follows that, the parts are the same and so is what follows
(`Header.memberText_append_inj`, `Header.structText_append_inj`).

Lines are told apart by their line feeds, and the words of a line by their spaces, since neither
stands in an identifier. A structure tells its fields by its members. Three facts about identifiers
make the members readable: no message type is spelled like a native type
(`FieldType.nativeType_inj`), no field is called like the member that owns the document, and no
member looks like the lines that follow the members (`Header.not_startsMember_afterMembers`).
-/

namespace SchemaCompiler

/-! ## Texts with a mark -/

/-- The text before the first occurrence of a character and the text after it are determined. -/
theorem append_cons_inj {mark : Char} {before other after rest : List Char}
    (hbefore : mark ∉ before) (hother : mark ∉ other)
    (h : before ++ mark :: after = other ++ mark :: rest) : before = other ∧ after = rest := by
  induction before generalizing other with
  | nil =>
      cases other with
      | nil => exact ⟨rfl, (List.cons.inj h).2⟩
      | cons c other =>
          obtain rfl : mark = c := (List.cons.inj h).1
          exact absurd List.mem_cons_self hother
  | cons c before ih =>
      cases other with
      | nil =>
          obtain rfl : c = mark := (List.cons.inj h).1
          exact absurd List.mem_cons_self hbefore
      | cons first other =>
          obtain ⟨rfl, htail⟩ := List.cons.inj h
          obtain ⟨rfl, hafter⟩ := ih (fun hmem => hbefore (List.mem_cons_of_mem _ hmem))
            (fun hmem => hother (List.mem_cons_of_mem _ hmem)) htail
          exact ⟨rfl, hafter⟩

/-- A mark that is one character stands between two texts: those before it are the same if neither
of them has the character. -/
theorem append_mark_inj {mark : String} {c : Char} (hmark : mark.toList = [c])
    {before other after rest : String} (hbefore : c ∉ before.toList) (hother : c ∉ other.toList)
    (h : before ++ (mark ++ after) = other ++ (mark ++ rest)) : before = other ∧ after = rest := by
  have hlist := congrArg String.toList h
  simp only [String.toList_append, hmark, List.cons_append, List.nil_append] at hlist
  obtain ⟨hfirst, hsecond⟩ := append_cons_inj hbefore hother hlist
  exact ⟨String.toList_inj.1 hfirst, String.toList_inj.1 hsecond⟩

/-- A mark that is one character stands between two texts: those before it are the same if neither
of those after it has the character. -/
theorem append_mark_inj_right {mark : String} {c : Char} (hmark : mark.toList = [c])
    {before other after rest : String} (hafter : c ∉ after.toList) (hrest : c ∉ rest.toList)
    (h : before ++ (mark ++ after) = other ++ (mark ++ rest)) : before = other ∧ after = rest := by
  have hlist := congrArg (fun text : String => text.toList.reverse) h
  simp only [String.toList_append, hmark, List.reverse_append, List.reverse_cons,
    List.nil_append, List.append_assoc, List.cons_append] at hlist
  obtain ⟨hsecond, hfirst⟩ := append_cons_inj (by simpa using hafter) (by simpa using hrest) hlist
  exact ⟨String.toList_inj.1 (List.reverse_inj.1 hfirst),
    String.toList_inj.1 (List.reverse_inj.1 hsecond)⟩

/-- A text without line feeds. -/
def OneLine (text : String) : Prop :=
  '\n' ∉ text.toList

/-- Whether a text has no line feeds can be computed. -/
instance decidableOneLine (text : String) : Decidable (OneLine text) :=
  inferInstanceAs (Decidable ('\n' ∉ text.toList))

/-- Texts without line feeds have none together. -/
theorem OneLine.append {first second : String} (hfirst : OneLine first) (hsecond : OneLine second) :
    OneLine (first ++ second) := by
  intro hmem
  rw [String.toList_append, List.mem_append] at hmem
  exact hmem.elim hfirst hsecond

/-- The first line of a text and what follows it are determined. -/
theorem OneLine.append_inj {first second rest other : String} (hfirst : OneLine first)
    (hsecond : OneLine second) (h : first ++ ("\n" ++ rest) = second ++ ("\n" ++ other)) :
    first = second ∧ rest = other :=
  append_mark_inj rfl hfirst hsecond h

/-- A character that stands in no identifier stands in no word. -/
theorem IsLetterFirst.notMem {word : List Char} (h : IsLetterFirst word) {c : Char}
    (hc : isIdentifierPart c = false) : c ∉ word := by
  intro hmem
  rw [h.isIdentifierPart_of_mem hmem] at hc
  cases hc

/-- A character that stands in no identifier stands in no name that is one. -/
theorem IsIdentifier.notMem {name : String} (h : IsIdentifier name) {c : Char}
    (hc : isIdentifierPart c = false) : c ∉ name.toList :=
  h.letterFirst.notMem hc

/-- An identifier has no line feed. -/
theorem IsIdentifier.oneLine {name : String} (h : IsIdentifier name) : OneLine name :=
  h.notMem (isIdentifierPart_of_isLayout rfl)

/-- An identifier has no space. -/
theorem IsIdentifier.space_notMem {name : String} (h : IsIdentifier name) : ' ' ∉ name.toList :=
  h.notMem (isIdentifierPart_of_isLayout rfl)

namespace Text

/-- A character other than the null character is the character of no other code point. -/
theorem eq_toNat_of_ofNat_eq {code : Nat} {c : Char} (hc : c ≠ Char.ofNat 0)
    (h : Char.ofNat code = c) : code = c.toNat := by
  by_cases hvalid : code.isValidChar
  · have hchar : Char.ofNat code = Char.ofNatAux code hvalid := dif_pos hvalid
    rw [← h, hchar]
    rfl
  · -- A number that is no code point gives the null character.
    have hnull : Char.ofNat code = Char.ofNat 0 := dif_neg hvalid
    exact absurd (h.symm.trans hnull) hc

/-- A character which is no other one's upper-case form: an ASCII character that is no capital
letter. -/
structure IsCaseless (c : Char) : Prop where
  ne_null : c ≠ Char.ofNat 0
  lt : c.toNat < 128
  not_capital : c.toNat < 65 ∨ 90 < c.toNat

/-- The expansions consist of capital letters and of characters that are not ASCII. -/
theorem uppercaseExpansions_codes :
    ∀ pair ∈ uppercaseExpansions, ∀ code ∈ pair.2, 65 ≤ code ∧ code ≤ 90 ∨ 128 ≤ code := by
  decide +kernel

/-- The runs are mapped to capital letters and to characters that are not ASCII. -/
theorem uppercaseRuns_codes :
    ∀ run ∈ uppercaseRuns, 65 ≤ run.first + run.offset ∧ run.last + run.offset ≤ 90 ∨
      128 ≤ run.first + run.offset := by
  decide +kernel

/-- A caseless character is in the upper-case form of itself only. -/
theorem IsCaseless.eq_of_mem_uppercaseChar {target c : Char} (htarget : IsCaseless target)
    (h : target ∈ uppercaseChar c) : c = target := by
  obtain ⟨hnull, hascii, hcapital⟩ := htarget
  unfold uppercaseChar at h
  split at h
  · next codes hcodes =>
    obtain ⟨before, after, hsplit, -⟩ := List.lookup_eq_some_iff.1 hcodes
    obtain ⟨code, hcode, hchar⟩ := List.mem_map.1 h
    have hrange := uppercaseExpansions_codes (c.toNat, codes) (by simp [hsplit]) code hcode
    rw [eq_toNat_of_ofNat_eq hnull hchar] at hrange
    omega
  · split at h
    · next run hrun =>
      have hcode := eq_toNat_of_ofNat_eq hnull (List.mem_singleton.1 h).symm
      have hpositive : target.toNat ≠ 0 := by
        intro hzero
        rw [← Char.ofNat_toNat target, hzero] at hnull
        exact hnull rfl
      have hrange := uppercaseRuns_codes run (List.mem_of_find?_eq_some hrun)
      have hholds := List.find?_some hrun
      simp only [CaseRun.holds, Bool.and_eq_true, decide_eq_true_eq] at hholds
      omega
    · exact (List.mem_singleton.1 h).symm

/-- A caseless character is in the upper-case form of a text only if it is in the text. -/
theorem IsCaseless.mem_of_mem_uppercase {target : Char} {text : String}
    (htarget : IsCaseless target) (h : target ∈ (uppercase text).toList) :
    target ∈ text.toList := by
  rw [uppercase, String.toList_ofList, List.mem_flatMap] at h
  obtain ⟨c, hc, hupper⟩ := h
  rwa [← htarget.eq_of_mem_uppercaseChar hupper]

/-- The upper-case form of a text without line feeds has none. -/
theorem oneLine_uppercase {text : String} (h : OneLine text) : OneLine (uppercase text) := by
  have hfeed : IsCaseless '\n' := ⟨by decide, by decide, by decide⟩
  exact fun hmem => h (hfeed.mem_of_mem_uppercase hmem)

end Text

/-! ## The type of a member -/

/-- No two primitive types have the same native type. -/
theorem Primitive.nativeType_inj {first second : Primitive}
    (h : first.nativeType = second.nativeType) : first = second := by
  revert h
  cases first <;> cases second <;> decide

/-- No native type is an identifier: each starts with a reserved word or holds a space. -/
theorem Primitive.not_isIdentifier_nativeType (type : Primitive) :
    ¬ IsIdentifier type.nativeType := by
  cases type <;> decide

/-- A message type is declared unlike every primitive type, and different types are declared
differently. -/
theorem FieldType.nativeType_inj {first second : FieldType} (hfirst : first.Spellable)
    (hsecond : second.Spellable) (h : first.nativeType = second.nativeType) : first = second := by
  cases first with
  | primitive type =>
      cases second with
      | primitive other => rw [Primitive.nativeType_inj h]
      | message name =>
          have hname : type.nativeType = name := h
          exact absurd (hsecond name rfl) (hname ▸ type.not_isIdentifier_nativeType)
  | message name =>
      cases second with
      | primitive type =>
          have hname : name = type.nativeType := h
          exact absurd (hfirst name rfl) (hname ▸ type.not_isIdentifier_nativeType)
      | message other =>
          obtain rfl : name = other := h
          rfl

/-- A character that stands in no identifier and in no native type stands in no type that can be
spelled. -/
theorem FieldType.Spellable.notMem_nativeType {type : FieldType} (h : type.Spellable) {c : Char}
    (hpart : isIdentifierPart c = false)
    (hnative : ∀ primitive : Primitive, c ∉ primitive.nativeType.toList) :
    c ∉ type.nativeType.toList := by
  cases type with
  | primitive type => exact hnative type
  | message name => exact (h name rfl).notMem hpart

/-- No type that can be spelled holds a colon. -/
theorem FieldType.Spellable.colon_notMem {type : FieldType} (h : type.Spellable) :
    ':' ∉ type.nativeType.toList := by
  refine h.notMem_nativeType (by decide) fun primitive => ?_
  cases primitive <;> decide

/-- The type of a member tells whether it is a list, and of what. -/
theorem Field.Spellable.declaredType_inj {first second : Field} (hfirst : first.Spellable)
    (hsecond : second.Spellable) (h : first.declaredType = second.declaredType) :
    first.type = second.type ∧ first.repeated = second.repeated := by
  -- A list type holds a colon, and no other type does.
  have hlist {type : FieldType} (htype : type.Spellable) (item : String) :
      type.nativeType ≠ "std::vector<" ++ item ++ ">" := by
    intro heq
    refine htype.colon_notMem ?_
    rw [heq]
    simp
  rw [declaredType, declaredType, hfirst.label, hsecond.label] at h
  cases hrepeated : first.repeated with
  | false =>
      cases hother : second.repeated with
      | false =>
          rw [hrepeated, hother] at h
          exact ⟨FieldType.nativeType_inj hfirst.type hsecond.type h, rfl⟩
      | true =>
          rw [hrepeated, hother] at h
          exact absurd h (hlist hfirst.type _)
  | true =>
      cases hother : second.repeated with
      | false =>
          rw [hrepeated, hother] at h
          exact absurd h.symm (hlist hsecond.type _)
      | true =>
          rw [hrepeated, hother] at h
          have hitems : first.type.nativeType = second.type.nativeType := by
            have happend : "std::vector<" ++ first.type.nativeType ++ ">" =
                "std::vector<" ++ second.type.nativeType ++ ">" := h
            rw [String.append_left_inj, String.append_right_inj] at happend
            exact happend
          exact ⟨FieldType.nativeType_inj hfirst.type hsecond.type hitems, rfl⟩

/-- The type of a member has no line feed. -/
theorem Field.Spellable.oneLine_declaredType {field : Field} (h : field.Spellable) :
    OneLine field.declaredType := by
  have hnative : OneLine field.type.nativeType := by
    refine h.type.notMem_nativeType (isIdentifierPart_of_isLayout rfl) fun primitive => ?_
    cases primitive <;> decide
  rw [declaredType, h.label]
  split
  · exact (OneLine.append (by decide) hnative).append (by decide)
  · exact hnative

namespace Header

open Layout

/-! ## Members -/

/-- The line of a member without its line feed. -/
def memberLine (type name : String) : String :=
  "    " ++ type ++ (" " ++ (name ++ ";"))

/-- The text of a member is its line. -/
theorem memberText_eq (field : Field) :
    memberText field = memberLine field.declaredType field.identifier ++ "\n" := by
  simp only [memberText, memberLine, String.append_assoc]
  rfl

/-- A line of a type and a name without spaces determines both. -/
theorem memberLine_inj {type otherType name otherName : String} (hname : ' ' ∉ name.toList)
    (hotherName : ' ' ∉ otherName.toList)
    (h : memberLine type name = memberLine otherType otherName) :
    type = otherType ∧ name = otherName := by
  unfold memberLine at h
  have hend : ' ' ∉ ";".toList := by decide
  have hnames (text : String) (htext : ' ' ∉ text.toList) : ' ' ∉ (text ++ ";").toList := by
    rw [String.toList_append, List.mem_append]
    exact fun hmem => hmem.elim htext hend
  obtain ⟨htype, hrest⟩ :=
    append_mark_inj_right rfl (hnames name hname) (hnames otherName hotherName) h
  exact ⟨(String.append_right_inj "    ").1 htype, (String.append_left_inj ";").1 hrest⟩

/-- The line of a member has no line feed. -/
theorem oneLine_memberLine {field : Field} (h : field.Spellable) :
    OneLine (memberLine field.declaredType field.identifier) :=
  (OneLine.append (by decide) h.oneLine_declaredType).append
    (OneLine.append (by decide) (OneLine.append h.name.oneLine (by decide)))

/-- The text of a member determines its field and where it ends. -/
theorem memberText_append_inj {first second : Field} {rest other : String}
    (hfirst : first.Spellable) (hsecond : second.Spellable)
    (h : memberText first ++ rest = memberText second ++ other) :
    first = second ∧ rest = other := by
  rw [memberText_eq, memberText_eq, String.append_assoc, String.append_assoc] at h
  obtain ⟨hline, hrest⟩ :=
    (oneLine_memberLine hfirst).append_inj (oneLine_memberLine hsecond) h
  obtain ⟨hdeclared, hname⟩ :=
    memberLine_inj hfirst.name.space_notMem hsecond.name.space_notMem hline
  obtain ⟨htype, hrepeated⟩ := hfirst.declaredType_inj hsecond hdeclared
  have hlabel : first.label = second.label := by rw [hfirst.label, hsecond.label, htype]
  refine ⟨?_, hrest⟩
  cases first
  cases second
  rw [Field.mk.injEq]
  exact ⟨hname, htype, hrepeated, hlabel⟩

/-- The text starts with the member of a field that can be spelled. -/
def StartsMember (text : String) : Prop :=
  ∃ (field : Field) (rest : String), field.Spellable ∧ text = memberText field ++ rest

/-- The members of fields before other text determine the fields. -/
theorem membersText_append_inj {first second : List Field} {rest other : String}
    (hfirst : ∀ field ∈ first, field.Spellable) (hsecond : ∀ field ∈ second, field.Spellable)
    (hrest : ¬ StartsMember rest) (hother : ¬ StartsMember other)
    (h : String.join (first.map memberText) ++ rest =
      String.join (second.map memberText) ++ other) :
    first = second ∧ rest = other := by
  induction first generalizing second with
  | nil =>
      cases second with
      | nil => simpa using h
      | cons field fields =>
          refine absurd ⟨field, String.join (fields.map memberText) ++ other,
            hsecond field (by simp), ?_⟩ hrest
          simpa [String.append_assoc] using h
  | cons field fields ih =>
      cases second with
      | nil =>
          refine absurd ⟨field, String.join (fields.map memberText) ++ rest,
            hfirst field (by simp), ?_⟩ hother
          simpa [String.append_assoc] using h.symm
      | cons otherField otherFields =>
          simp only [List.map_cons, String.join_cons, String.append_assoc] at h
          obtain ⟨rfl, htail⟩ := memberText_append_inj (hfirst field (by simp))
            (hsecond otherField (by simp)) h
          obtain ⟨rfl, hsame⟩ := ih (fun field hmem => hfirst field (by simp [hmem]))
            (fun field hmem => hsecond field (by simp [hmem])) htail
          exact ⟨rfl, hsame⟩

/-! ## Structures -/

/-- The text of a layout starts with its first line. -/
theorem exists_renderAt_eq {depth : Nat} {items : List LayoutItem} {first : String}
    {more : List String} (h : lines depth items = first :: more) :
    ∃ rest, renderAt depth items = first ++ ("\n" ++ rest) := by
  refine ⟨String.join (more.map (· ++ "\n")), ?_⟩
  rw [renderAt, h, List.map_cons, String.join_cons, String.append_assoc]

/-- The first line after the members of a structure: the member that owns the document, or an empty
line after the fields, or the head of the first method. -/
def lineAfterMembers (serializers : Bool) (message : Message) : String :=
  if serializers then
    memberLine "std::shared_ptr<rapidjson::Document>" sourceDocument
  else if message.fields.isEmpty then
    "    " ++ message.identifier ++ "& Parse(const char* str) \x7b"
  else ""

/-- What follows the members starts with this line. -/
theorem exists_lines_afterMembers (serializers : Bool) (message : Message) :
    ∃ more, lines 1 (afterMembers serializers message) =
      lineAfterMembers serializers message :: more := by
  unfold lineAfterMembers afterMembers
  cases serializers with
  | true => exact ⟨_, rfl⟩
  | false =>
      cases message.fields.isEmpty with
      | false => exact ⟨_, rfl⟩
      | true =>
          have hhead : indented 1 (message.identifier ++ "& Parse(const char* str) \x7b") =
              "    " ++ message.identifier ++ "& Parse(const char* str) \x7b" := by
            rw [indented, if_neg (by simp), String.append_assoc]
            rfl
          rw [if_neg (by simp), if_pos rfl, ← hhead]
          exact ⟨_, rfl⟩

/-- The first line after the members has no line feed. -/
theorem oneLine_lineAfterMembers {message : Message} (h : message.Spellable)
    (serializers : Bool) : OneLine (lineAfterMembers serializers message) := by
  unfold lineAfterMembers
  split
  · decide
  · split
    · exact (OneLine.append (by decide) h.name.oneLine).append (by decide)
    · decide

/-- No member is the first line after the members. -/
theorem memberLine_ne_lineAfterMembers {field : Field} (hfield : field.Spellable)
    (serializers : Bool) (message : Message) :
    memberLine field.declaredType field.identifier ≠ lineAfterMembers serializers message := by
  unfold lineAfterMembers
  intro h
  split at h
  · -- No field is called like the member that owns the document, whose name has an underscore.
    obtain ⟨-, hname⟩ := memberLine_inj hfield.name.space_notMem (by decide) h
    have hunderscore : '_' ∉ field.identifier.toList := hfield.name.notMem (by decide)
    rw [hname] at hunderscore
    exact absurd (by decide) hunderscore
  · split at h
    · -- The head of a method ends with a brace.
      have hlast := congrArg (fun text : String => text.toList.reverse.head?) h
      simp [memberLine] at hlast
    · simp [memberLine] at h

/-- What follows the members of a structure starts with no member. -/
theorem not_startsMember_afterMembers {message : Message} (h : message.Spellable)
    (serializers : Bool) (rest : String) :
    ¬ StartsMember (renderAt 1 (afterMembers serializers message) ++ rest) := by
  rintro ⟨field, other, hfield, heq⟩
  obtain ⟨more, hlines⟩ := exists_lines_afterMembers serializers message
  obtain ⟨tail, htail⟩ := exists_renderAt_eq hlines
  rw [htail, memberText_eq] at heq
  simp only [String.append_assoc] at heq
  obtain ⟨hline, -⟩ :=
    (oneLine_lineAfterMembers h serializers).append_inj (oneLine_memberLine hfield) heq
  exact memberLine_ne_lineAfterMembers hfield serializers message hline.symm

/-- The text of a structure determines its message and where it ends. -/
theorem structText_append_inj {serializers : Bool} {first second : Message} {rest other : String}
    (hfirst : first.Spellable) (hsecond : second.Spellable)
    (h : structText serializers first ++ rest = structText serializers second ++ other) :
    first = second ∧ rest = other := by
  rw [structText_eq, structText_eq] at h
  simp only [String.append_assoc, String.append_right_inj] at h
  -- The name ends at the space before the brace.
  have hopen (name after : String) :
      name ++ (" \x7b\n" ++ after) = name ++ (" " ++ ("\x7b\n" ++ after)) := by
    show name ++ (" " ++ "\x7b\n" ++ after) = _
    rw [String.append_assoc]
  rw [hopen, hopen] at h
  obtain ⟨hname, hbody⟩ :=
    append_mark_inj rfl hfirst.name.space_notMem hsecond.name.space_notMem h
  rw [String.append_right_inj] at hbody
  obtain ⟨hfields, hafter⟩ := membersText_append_inj hfirst.fields hsecond.fields
    (not_startsMember_afterMembers hfirst serializers _)
    (not_startsMember_afterMembers hsecond serializers _) hbody
  obtain rfl : first = second := by
    cases first
    cases second
    rw [Message.mk.injEq]
    exact ⟨hname, hfields⟩
  simp only [String.append_right_inj] at hafter
  exact ⟨rfl, hafter⟩

/-- The structures of messages determine the messages. -/
theorem structsText_inj {serializers : Bool} {first second : List Message}
    (hfirst : ∀ message ∈ first, message.Spellable)
    (hsecond : ∀ message ∈ second, message.Spellable)
    (h : structsText serializers first = structsText serializers second) : first = second := by
  have hcons (message : Message) (messages : List Message) :
      structsText serializers (message :: messages) =
        "\n" ++ (structText serializers message ++ structsText serializers messages) := by
    rw [structsText, List.map_cons, String.join_cons, String.append_assoc]
    rfl
  have hnil (message : Message) (messages : List Message) :
      structsText serializers [] ≠ structsText serializers (message :: messages) := by
    rw [hcons]
    intro hempty
    simpa [structsText] using congrArg String.toList hempty
  induction first generalizing second with
  | nil =>
      cases second with
      | nil => rfl
      | cons message messages => exact absurd h (hnil message messages)
  | cons message messages ih =>
      cases second with
      | nil => exact absurd h.symm (hnil message messages)
      | cons otherMessage otherMessages =>
          rw [hcons, hcons, String.append_right_inj] at h
          obtain ⟨rfl, htail⟩ := structText_append_inj (hfirst message (by simp))
            (hsecond otherMessage (by simp)) h
          rw [ih (fun other hmem => hfirst other (by simp [hmem]))
            (fun other hmem => hsecond other (by simp [hmem])) htail]

/-! ## Headers -/

/-- The guard of a package whose name has no line feed has none. -/
theorem oneLine_includeGuard {package : String} (h : OneLine package) :
    OneLine (includeGuard package) :=
  (OneLine.append (by decide) (Text.oneLine_uppercase h)).append (by decide)

/-- The text of a header opens with its guard. -/
theorem exists_text_eq (options : Options) (schema : Schema) :
    ∃ rest, text options schema =
      "#ifndef " ++ includeGuard schema.package ++ ("\n" ++ rest) := by
  have hlines : ∃ more, lines 0 (layout options schema) =
      indented 0 ("#ifndef " ++ includeGuard schema.package) :: more := ⟨_, rfl⟩
  rw [indented_zero] at hlines
  obtain ⟨more, hmore⟩ := hlines
  exact exists_renderAt_eq hmore

/-- The lines before the namespace depend on the package through its guard only. -/
theorem preamble_congr {first second : String} (h : includeGuard first = includeGuard second)
    (options : Options) : preamble first options = preamble second options := by
  rw [preamble, preamble, h]

/-- The text of a header is the lines before the namespace, the head of the namespace, the
structures, and what stands after them. -/
theorem text_eq_preamble (options : Options) (schema : Schema) :
    text options schema =
      render (preamble schema.package options) ++
        ("namespace " ++ (schema.package ++ (" " ++ ("\x7b\n" ++
          (structsText options.serializers schema.messages.messages ++
            render (closing schema)))))) := by
  have hlevel := (nested_preamble schema.package options).level
  have hhead : renderAt 0 [.line ("namespace " ++ schema.package ++ " \x7b")] =
      "namespace " ++ (schema.package ++ (" " ++ "\x7b\n")) := by
    simp [renderAt, lines, indented_zero, String.append_assoc]
  rw [text_eq, opening, render_eq_renderAt, renderAt_append hlevel, hhead, ← render_eq_renderAt]
  simp only [String.append_assoc]

/-- The header of a closed schema determines it. -/
theorem text_inj {options : Options} {first second : Schema} (hfirst : first.Closed)
    (hsecond : second.Closed) (h : text options first = text options second) :
    first = second := by
  -- The first lines agree, so the guards do.
  have hguard : includeGuard first.package = includeGuard second.package := by
    obtain ⟨firstRest, hfirstText⟩ := exists_text_eq options first
    obtain ⟨secondRest, hsecondText⟩ := exists_text_eq options second
    rw [hfirstText, hsecondText] at h
    have honeLine {schema : Schema} (hclosed : schema.Closed) :
        OneLine ("#ifndef " ++ includeGuard schema.package) :=
      OneLine.append (by decide) (oneLine_includeGuard hclosed.package.oneLine)
    exact (String.append_right_inj _).1 ((honeLine hfirst).append_inj (honeLine hsecond) h).1
  -- Different packages can have the same guard, but the head of the namespace tells them apart.
  rw [text_eq_preamble, text_eq_preamble, preamble_congr hguard, String.append_right_inj,
    String.append_right_inj] at h
  obtain ⟨hpackage, hrest⟩ :=
    append_mark_inj rfl hfirst.package.space_notMem hsecond.package.space_notMem h
  have hclosing : closing first = closing second := by rw [closing, closing, hpackage]
  rw [hclosing, String.append_right_inj, String.append_left_inj] at hrest
  have hmessages := structsText_inj hfirst.spellable hsecond.spellable hrest
  have htables : first.messages = second.messages := by
    rw [hfirst.listed, hsecond.listed, hmessages]
  cases first
  cases second
  rw [Schema.mk.injEq]
  exact ⟨hpackage, htables⟩

end Header

/-! ## The main result -/

/-- Schemas that are compiled from any texts under any options are the same if they have the same
header under some options. A member of a message type is declared unlike every member of a
primitive type. -/
theorem header_determines_schema (firstOptions secondOptions options : Options)
    (firstText secondText : String) (first second : Schema)
    (hfirst : (compileSchema firstOptions firstText).result = .ok first)
    (hsecond : (compileSchema secondOptions secondText).result = .ok second) :
    (Header.text options first = Header.text options second → first = second) ∧
    ∀ message ∈ first.messages.messages, ∀ field ∈ message.fields, ∀ name,
      field.type = .message name → ∀ (identifier : String) (type : Primitive) (repeated : Bool),
        field.declaredType ≠
          Field.declaredType { identifier, type := .primitive type, repeated } := by
  have hclosed := closed_of_compileSchema hfirst
  refine ⟨Header.text_inj hclosed (closed_of_compileSchema hsecond), ?_⟩
  intro message hmessage field hfield name htype identifier type repeated hdeclared
  have hspellable := (hclosed.spellable message hmessage).fields field hfield
  -- The declared type does not depend on the name of the field.
  have hprimitive : Field.Spellable
      { identifier := field.identifier, type := .primitive type, repeated } :=
    ⟨hspellable.name, fun _ hmessageType => (by cases hmessageType), rfl⟩
  obtain ⟨hsame, -⟩ := hspellable.declaredType_inj hprimitive hdeclared
  rw [htype] at hsame
  cases hsame

/-- The messages of `nestingTree` in a package whose name differs only by its case. -/
def capitalNestingTree : SchemaTree :=
  { nestingTree with package := ⟨"P", 1⟩ }

/-- Two packages with one guard have different headers, and a member that is a list of messages is
no list of numbers. -/
theorem capitalNestingTree_header_ne :
    (compileSchema .default (Token.layOut (nestingTree.tokens ++ [.endOfInput]))).result =
      .ok nestingTree.meaning ∧
    (compileSchema .default (Token.layOut (capitalNestingTree.tokens ++ [.endOfInput]))).result =
      .ok capitalNestingTree.meaning ∧
    Header.includeGuard nestingTree.meaning.package =
      Header.includeGuard capitalNestingTree.meaning.package ∧
    (∀ options, Header.text options nestingTree.meaning ≠
      Header.text options capitalNestingTree.meaning) ∧
    Field.declaredType ⟨"items", .message "A", true, "A"⟩ ≠
      Field.declaredType ⟨"items", .primitive .double, true, "double"⟩ := by
  have hscoped : MessageTree.ScopedAfter [] nestingTree.messages := by
    simp [nestingTree, MessageTree.ScopedAfter, MessageTree.Scoped, TypeTree.Scoped]
  have hnesting :
      (compileSchema .default (Token.layOut (nestingTree.tokens ++ [.endOfInput]))).result =
        .ok nestingTree.meaning :=
    SchemaTree.compileSchema_layOut ⟨hscoped, fun _ => by decide⟩ (by simp [nestingTree])
      ⟨by decide, by decide, by decide⟩
  have hcapital :
      (compileSchema .default (Token.layOut (capitalNestingTree.tokens ++ [.endOfInput]))).result =
        .ok capitalNestingTree.meaning :=
    SchemaTree.compileSchema_layOut ⟨hscoped, fun _ => by decide⟩
      (by simp [capitalNestingTree, nestingTree]) ⟨by decide, by decide, by decide⟩
  have hdetermines (options : Options) :=
    header_determines_schema .default .default options _ _ _ _ hnesting hcapital
  refine ⟨hnesting, hcapital, by decide, fun options hsame => ?_, ?_⟩
  · have hpackage := congrArg Schema.package ((hdetermines options).1 hsame)
    exact absurd hpackage (by decide)
  · exact (hdetermines .default).2 ⟨"B", [⟨"items", .message "A", true, "A"⟩]⟩ (by decide) _
      List.mem_cons_self "A" rfl "items" .double true

end SchemaCompiler
