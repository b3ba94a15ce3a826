import SchemaCompiler.Proofs.StructReading

/-!
# Braces and indentation

The indentation of a header follows the braces of the generated code. Read
`indentation_follows_braces` last: no level is left that is not open, and after every line inside
the namespace the number of open braces is the depth of the indentation and one for the namespace.

`Layout.pushes` lists the lines of a layout with the depth at which each of them is written. The
depth follows the braces for every nested layout in which a line has an opening brace exactly if it
enters a level, and a closing brace exactly if it leaves one (`LayoutItem.Braced`,
`Layout.Nested.braceDepth_through`). The structures of a schema whose names can be spelled are such
layouts (`Header.braced_struct`), since no name holds a brace.
-/

namespace SchemaCompiler

/-! ## Braces of a text -/

namespace Text

/-- The number of opening braces in a text. -/
def openings (text : String) : Nat :=
  text.toList.count '\x7b'

/-- The number of closing braces in a text. -/
def closings (text : String) : Nat :=
  text.toList.count '\x7d'

/-- The opening braces of two texts. -/
theorem openings_append (first second : String) :
    openings (first ++ second) = openings first + openings second := by
  rw [openings, String.toList_append, List.count_append]
  rfl

/-- The closing braces of two texts. -/
theorem closings_append (first second : String) :
    closings (first ++ second) = closings first + closings second := by
  rw [closings, String.toList_append, List.count_append]
  rfl

/-- The braces of a text are balanced: no start of it closes more of them than it opens, and all
that are opened are closed. -/
structure Balanced (text : String) : Prop where
  closings_le : ∀ start rest, text = start ++ rest → closings start ≤ openings start
  openings_eq : openings text = closings text

/-- The number of spaces before the first other character of a line. -/
def leadingSpaces (line : String) : Nat :=
  (line.toList.takeWhile (· = ' ')).length

/-- The number of open braces after a character, or nothing if it closes a brace that is not
open. -/
def braceStep (depth : Nat) (c : Char) : Option Nat :=
  if c = '\x7b' then some (depth + 1)
  else if c = '\x7d' then if depth = 0 then none else some (depth - 1)
  else some depth

/-- The number of open braces after a text, of which as many as given are open before it, or nothing
if it closes a brace that is not open. -/
def braceDepth (depth : Nat) (text : String) : Option Nat :=
  text.toList.foldlM braceStep depth

/-- The open braces after two texts are those after the second one, with those after the first one
open before it. -/
theorem braceDepth_append (depth : Nat) (first second : String) :
    braceDepth depth (first ++ second) =
      (braceDepth depth first).bind fun middle => braceDepth middle second := by
  rw [braceDepth, String.toList_append, List.foldlM_append]
  rfl

/-- A character opens a brace, closes one that is open, or leaves the open braces as they are. -/
theorem braceStep_eq_some {depth next : Nat} {c : Char} (h : braceStep depth c = some next) :
    depth + [c].count '\x7b' = [c].count '\x7d' + next := by
  unfold braceStep at h
  split_ifs at h with hopen hclose hdepth
  · cases h
    simp [hopen]
  · cases h
    simp [hclose]
    omega
  · cases h
    simp [hopen, hclose]

/-- The open braces are those that were opened and not closed. -/
theorem openings_of_braceDepth {depth last : Nat} {text : String}
    (h : braceDepth depth text = some last) :
    depth + openings text = closings text + last := by
  rw [braceDepth] at h
  unfold openings closings
  generalize text.toList = chars at h ⊢
  induction chars generalizing depth with
  | nil => simpa using h
  | cons c rest ih =>
      rw [List.foldlM_cons] at h
      obtain ⟨next, hnext, hrest⟩ := Option.bind_eq_some_iff.1 h
      have hstep := braceStep_eq_some hnext
      have hsum := ih hrest
      rw [← List.singleton_append, List.count_append, List.count_append]
      omega

/-- A text after which no brace is open has balanced braces. -/
theorem balanced_of_braceDepth {text : String} (h : braceDepth 0 text = some 0) :
    Balanced text := by
  constructor
  · rintro start rest rfl
    rw [braceDepth_append] at h
    obtain ⟨middle, hmiddle, -⟩ := Option.bind_eq_some_iff.1 h
    have hsum := openings_of_braceDepth hmiddle
    omega
  · have hsum := openings_of_braceDepth h
    omega

/-- Without closing braces all opening braces stay open. -/
theorem braceDepth_of_closings {text : String} (h : closings text = 0) (depth : Nat) :
    braceDepth depth text = some (depth + openings text) := by
  rw [closings, List.count_eq_zero] at h
  unfold braceDepth openings
  generalize text.toList = chars at h ⊢
  induction chars generalizing depth with
  | nil => rfl
  | cons c rest ih =>
      obtain ⟨hc, hrest⟩ := not_or.1 fun hmem => h (List.mem_cons.2 hmem)
      have hstep : braceStep depth c = some (depth + [c].count '\x7b') := by
        rw [braceStep, if_neg (Ne.symm hc)]
        split_ifs with hopen <;> simp [hopen]
      have hcount : ([c] ++ rest).count '\x7b' = [c].count '\x7b' + rest.count '\x7b' :=
        List.count_append
      rw [List.singleton_append] at hcount
      rw [List.foldlM_cons, hstep, hcount, ← Nat.add_assoc]
      exact ih _ hrest

/-- Without opening braces the closing braces close those that were open before. -/
theorem braceDepth_of_openings {text : String} (h : openings text = 0) (depth : Nat) :
    braceDepth (depth + closings text) text = some depth := by
  rw [openings, List.count_eq_zero] at h
  unfold braceDepth closings
  generalize text.toList = chars at h ⊢
  induction chars with
  | nil => rfl
  | cons c rest ih =>
      obtain ⟨hc, hrest⟩ := not_or.1 fun hmem => h (List.mem_cons.2 hmem)
      have hstep : braceStep (depth + (c :: rest).count '\x7d') c =
          some (depth + rest.count '\x7d') := by
        rw [braceStep, if_neg (Ne.symm hc)]
        split_ifs with hclose hzero
        · simp [hclose] at hzero
        · simp [hclose, ← Nat.add_assoc]
        · rw [List.count_cons_of_ne hclose]
      rw [List.foldlM_cons, hstep]
      exact ih hrest

/-- A text with the given numbers of opening and closing braces. -/
structure HasBraces (opened closed : Nat) (text : String) : Prop where
  openings_eq : openings text = opened
  closings_eq : closings text = closed

/-- A text without braces. -/
abbrev Braceless (text : String) : Prop :=
  HasBraces 0 0 text

/-- Two texts have no braces exactly if they have none together. -/
theorem braceless_append {first second : String} :
    Braceless (first ++ second) ↔ Braceless first ∧ Braceless second := by
  constructor
  · rintro ⟨hopen, hclose⟩
    obtain ⟨hopenFirst, hopenSecond⟩ := Nat.add_eq_zero_iff.1 (openings_append .. ▸ hopen)
    obtain ⟨hcloseFirst, hcloseSecond⟩ := Nat.add_eq_zero_iff.1 (closings_append .. ▸ hclose)
    exact ⟨⟨hopenFirst, hcloseFirst⟩, ⟨hopenSecond, hcloseSecond⟩⟩
  · rintro ⟨hfirst, hsecond⟩
    constructor
    · rw [openings_append, hfirst.openings_eq, hsecond.openings_eq]
    · rw [closings_append, hfirst.closings_eq, hsecond.closings_eq]

/-- A text without braces adds none to the text after it. -/
theorem HasBraces.append {first second : String} {opened closed : Nat} (hfirst : Braceless first)
    (hsecond : HasBraces opened closed second) : HasBraces opened closed (first ++ second) := by
  constructor
  · rw [openings_append, hfirst.openings_eq, Nat.zero_add, hsecond.openings_eq]
  · rw [closings_append, hfirst.closings_eq, Nat.zero_add, hsecond.closings_eq]

/-- The braces of a literal are those among its characters. -/
theorem hasBraces_literal {text : List Char} {opened closed : Nat}
    (h : (text.count '\x7b', text.count '\x7d') = (opened, closed)) :
    HasBraces opened closed (String.ofList text) := by
  obtain ⟨hopen, hclose⟩ := Prod.mk.inj h
  constructor
  · rw [openings, String.toList_ofList, hopen]
  · rw [closings, String.toList_ofList, hclose]

/-- A text without braces leaves the open braces as they are. -/
theorem HasBraces.braceDepth_eq {text : String} (h : Braceless text) (depth : Nat) :
    braceDepth depth text = some depth := by
  rw [braceDepth_of_closings h.closings_eq, h.openings_eq, Nat.add_zero]

/-- A text that holds neither brace has none. -/
theorem braceless_of_notMem {text : String} (hopen : '\x7b' ∉ text.toList)
    (hclose : '\x7d' ∉ text.toList) : Braceless text :=
  ⟨List.count_eq_zero.2 hopen, List.count_eq_zero.2 hclose⟩

/-- The upper-case form of a text without braces has none. -/
theorem braceless_uppercase {text : String} (h : Braceless text) : Braceless (uppercase text) := by
  have hopen : IsCaseless '\x7b' := ⟨by decide, by decide, by decide⟩
  have hclose : IsCaseless '\x7d' := ⟨by decide, by decide, by decide⟩
  exact braceless_of_notMem
    (fun hmem => List.count_eq_zero.1 h.openings_eq (hopen.mem_of_mem_uppercase hmem))
    fun hmem => List.count_eq_zero.1 h.closings_eq (hclose.mem_of_mem_uppercase hmem)

end Text

/-! ## Pushed lines -/

/-- The braces of a line tell what it does to the indentation: a brace opens where a level is
entered and closes where one is left, and there are no others. -/
def LayoutItem.Braced : LayoutItem → Prop
  | line text => Text.Braceless text
  | enter text => Text.HasBraces 1 0 text
  | leave text => Text.HasBraces 0 1 text

/-- A tidy line has the braces of its level. -/
theorem LayoutItem.Tidy.braced {item : LayoutItem} (h : item.Tidy) : item.Braced := by
  have hopen := h.count_eq (show isLineMark '\x7b' = true by decide)
  have hclose := h.count_eq (show isLineMark '\x7d' = true by decide)
  cases item <;> exact ⟨hopen, hclose⟩

namespace Layout

/-- A line as it is pushed, with the depth before it. -/
structure Push where
  before : Nat
  item : LayoutItem
deriving DecidableEq, Repr

namespace Push

/-- The depth at which a line is written: a level is left before its last line. -/
def depth (push : Push) : Nat :=
  match push.item with
  | .line _ | .enter _ => push.before
  | .leave _ => push.before - 1

/-- The depth after a line. -/
def after (push : Push) : Nat :=
  depthAfter push.before [push.item]

/-- The line as it is written. -/
def line (push : Push) : String :=
  indented push.depth push.item.text

end Push

/-- The lines of a layout that starts at the given depth, as they are pushed. -/
def pushes : Nat → List LayoutItem → List Push
  | _, [] => []
  | depth, item :: rest => ⟨depth, item⟩ :: pushes (depthAfter depth [item]) rest

/-- The text of pushed lines. -/
def textOf (pushed : List Push) : String :=
  String.join (pushed.map (·.line ++ "\n"))

/-- A layout is written line by line as it is pushed. -/
theorem lines_eq_map_pushes (depth : Nat) (items : List LayoutItem) :
    lines depth items = (pushes depth items).map Push.line := by
  induction items generalizing depth with
  | nil => rfl
  | cons item rest ih => cases item <;> exact congrArg (_ :: ·) (ih _)

/-- The text of a layout is that of its pushed lines. -/
theorem renderAt_eq_textOf (depth : Nat) (items : List LayoutItem) :
    renderAt depth items = textOf (pushes depth items) := by
  rw [renderAt, lines_eq_map_pushes, textOf, List.map_map]
  rfl

/-- The text of pushed lines with a first one. -/
theorem textOf_cons (push : Push) (rest : List Push) :
    textOf (push :: rest) = push.line ++ "\n" ++ textOf rest :=
  String.join_cons

/-- The text of two lists of pushed lines. -/
theorem textOf_append (first second : List Push) :
    textOf (first ++ second) = textOf first ++ textOf second := by
  rw [textOf, List.map_append, String.join_append]
  rfl

/-- The lines of two layouts are pushed one after the other. -/
theorem pushes_append (depth : Nat) (first second : List LayoutItem) :
    pushes depth (first ++ second) =
      pushes depth first ++ pushes (depthAfter depth first) second := by
  induction first generalizing depth with
  | nil => rfl
  | cons item rest ih =>
      rw [List.cons_append, pushes, ih, ← depthAfter_append]
      rfl

/-- Only lines of the layout are pushed. -/
theorem item_mem_of_mem_pushes {depth : Nat} {items : List LayoutItem} {push : Push}
    (h : push ∈ pushes depth items) : push.item ∈ items := by
  induction items generalizing depth with
  | nil => cases h
  | cons item rest ih =>
      rcases List.mem_cons.1 h with rfl | hrest
      · exact List.mem_cons_self
      · exact List.mem_cons_of_mem item (ih hrest)

/-- A nested layout leaves a level only where one is open. -/
theorem Nested.before_pos {items : List LayoutItem} (h : Nested items) {depth : Nat} {push : Push}
    (hpush : push ∈ pushes depth items) {text : String} (hleave : push.item = .leave text) :
    0 < push.before := by
  induction h generalizing depth with
  | nil => cases hpush
  | line other _ ih =>
      rcases List.mem_cons.1 hpush with rfl | hrest
      · cases hleave
      · exact ih hrest
  | block head tail hbody _ ihbody ih =>
      rw [pushes_append, List.mem_append] at hpush
      rcases hpush with hblock | hrest
      · rcases List.mem_cons.1 hblock with rfl | hinner
        · cases hleave
        · rw [pushes_append, List.mem_append] at hinner
          rcases hinner with hbodyPush | hlast
          · exact ihbody hbodyPush
          · -- The last line of a block stands one level deeper than its first line.
            obtain rfl := List.mem_singleton.1 hlast
            exact (hbody.level (depth + 1)).symm ▸ Nat.succ_pos depth
      · exact ih hrest

/-- The braces of a line are those of its text: its indentation and its line feed have none. -/
theorem braceDepth_line (depth : Nat) (push : Push) :
    Text.braceDepth depth (push.line ++ "\n") = Text.braceDepth depth push.item.text := by
  have hindented : Text.braceDepth depth push.line = Text.braceDepth depth push.item.text := by
    unfold Push.line indented
    split
    · next hempty => rw [hempty]
    · have hspaces : Text.Braceless (String.ofList (List.replicate (4 * push.depth) ' ')) :=
        Text.braceless_of_notMem (by simp) (by simp)
      rw [Text.braceDepth_append, hspaces.braceDepth_eq]
      rfl
  have hfeed : Text.Braceless "\n" := Text.hasBraces_literal rfl
  rw [Text.braceDepth_append, hindented]
  cases Text.braceDepth depth push.item.text with
  | none => rfl
  | some after => exact hfeed.braceDepth_eq after

/-- A line changes the number of open braces as it changes the depth. -/
theorem braceDepth_push {push : Push} (hbraced : push.item.Braced)
    (hopen : ∀ text, push.item = .leave text → 0 < push.before) (outer : Nat) :
    Text.braceDepth (push.before + outer) (push.line ++ "\n") = some (push.after + outer) := by
  rw [braceDepth_line]
  obtain ⟨before, item⟩ := push
  cases item with
  | line text => exact hbraced.braceDepth_eq _
  | enter text =>
      rw [LayoutItem.text, Text.braceDepth_of_closings hbraced.closings_eq, hbraced.openings_eq]
      exact congrArg some (Nat.add_right_comm before outer 1)
  | leave text =>
      have hlevel : before + outer = before - 1 + outer + Text.closings text := by
        have hpositive : 0 < before := hopen text rfl
        rw [hbraced.closings_eq]
        omega
      rw [LayoutItem.text, hlevel, Text.braceDepth_of_openings hbraced.openings_eq]
      rfl

/-- After a layout the open braces are those that were open before it, with one for each level that
it has entered and not left. -/
theorem braceDepth_pushes {items : List LayoutItem} (hbraced : ∀ item ∈ items, item.Braced)
    {depth : Nat} (hopen : ∀ push ∈ pushes depth items,
      ∀ text, push.item = .leave text → 0 < push.before) (outer : Nat) :
    Text.braceDepth (depth + outer) (textOf (pushes depth items)) =
      some (depthAfter depth items + outer) := by
  induction items generalizing depth with
  | nil => rfl
  | cons item rest ih =>
      obtain ⟨hitem, hrest⟩ := List.forall_mem_cons.1 hbraced
      obtain ⟨hfirst, hlater⟩ := List.forall_mem_cons.1 hopen
      have hstep : Text.braceDepth (depth + outer) (Push.line ⟨depth, item⟩ ++ "\n") =
          some (depthAfter depth [item] + outer) := braceDepth_push hitem hfirst outer
      have hafter : depthAfter depth (item :: rest) = depthAfter (depthAfter depth [item]) rest :=
        depthAfter_append depth [item] rest
      rw [pushes, textOf_cons, Text.braceDepth_append, hstep, hafter]
      exact ih hrest hlater

/-- A nested layout closes the braces that it opens, and no others. -/
theorem Nested.braceDepth_textOf {items : List LayoutItem} (h : Nested items)
    (hbraced : ∀ item ∈ items, item.Braced) (depth outer : Nat) :
    Text.braceDepth (depth + outer) (textOf (pushes depth items)) = some (depth + outer) := by
  have hopen : ∀ push ∈ pushes depth items, ∀ text, push.item = .leave text → 0 < push.before :=
    fun push hpush text => h.before_pos hpush
  rw [braceDepth_pushes hbraced hopen, h.level]

/-- The lines through one of them are those of a start of the layout. -/
theorem exists_of_pushes_eq {items : List LayoutItem} {depth : Nat} {earlier later : List Push}
    {push : Push} (h : pushes depth items = earlier ++ push :: later) :
    ∃ start rest, items = start ++ rest ∧ pushes depth start = earlier ++ [push] ∧
      depthAfter depth start = push.after := by
  induction items generalizing depth earlier with
  | nil => simp [pushes] at h
  | cons item items ih =>
      cases earlier with
      | nil =>
          obtain ⟨rfl, -⟩ := List.cons.inj h
          exact ⟨[item], items, rfl, rfl, rfl⟩
      | cons first earlier =>
          obtain ⟨rfl, hpushes⟩ := List.cons.inj h
          obtain ⟨start, rest, rfl, hstart, hafter⟩ := ih hpushes
          refine ⟨item :: start, rest, rfl, congrArg (_ :: ·) hstart, ?_⟩
          rw [← hafter, ← List.singleton_append, depthAfter_append]

/-- After every line of a nested layout the open braces are those that were open before it, with
one for each level of the indentation. -/
theorem Nested.braceDepth_through {items : List LayoutItem} (h : Nested items)
    (hbraced : ∀ item ∈ items, item.Braced) {depth : Nat} {earlier later : List Push} {push : Push}
    (hpushes : pushes depth items = earlier ++ push :: later) (outer : Nat) :
    Text.braceDepth (depth + outer) (textOf (earlier ++ [push])) = some (push.after + outer) := by
  obtain ⟨start, rest, rfl, hstart, hafter⟩ := exists_of_pushes_eq hpushes
  rw [← hstart, ← hafter]
  refine braceDepth_pushes (List.forall_mem_append.1 hbraced).1 (fun push hpush text hleave => ?_) _
  exact h.before_pos (pushes_append .. ▸ List.mem_append_left _ hpush) hleave

end Layout

/-! ## Braces of structures -/

/-- An identifier has no braces. -/
theorem IsIdentifier.braceless {name : String} (h : IsIdentifier name) : Text.Braceless name :=
  Text.braceless_of_notMem (h.notMem rfl) (h.notMem rfl)

namespace Header

open Layout Text

/-- A line without braces has the braces of its level. -/
theorem braced_line {text : String} (h : Braceless text) :
    ∀ item ∈ [LayoutItem.line text], item.Braced :=
  List.forall_mem_singleton.2 h

/-- The lines of a structure have the braces of their levels. -/
theorem braced_struct {message : Message} (h : message.Spellable) (serializers : Bool) :
    ∀ item ∈ struct serializers message, item.Braced :=
  fun item hitem => (tidy_struct h serializers item hitem).braced

/-! ## Starts of lines -/

/-- A line that is not empty starts with four spaces for each level, and with no others if its text
starts with no spaces. -/
theorem leadingSpaces_indented {text : String} (h : StartsPlain text) (htext : text ≠ "")
    (depth : Nat) : leadingSpaces (indented depth text) = 4 * depth := by
  have hstart : text.toList.takeWhile (· = ' ') = [] := by
    cases hlist : text.toList with
    | nil => rfl
    | cons c rest =>
        rw [StartsPlain, hlist, List.head?_cons] at h
        exact List.takeWhile_cons_of_neg (by simpa using h)
  rw [indented, if_neg htext, leadingSpaces, String.toList_append, String.toList_ofList,
    List.takeWhile_append_of_pos (fun c hmem => by rw [List.eq_of_mem_replicate hmem]; rfl),
    hstart, List.append_nil, List.length_replicate]

/-! ## The namespace of a header -/

/-- The line that opens the namespace, as it is pushed. -/
def namespaceHead (schema : Schema) : Push :=
  ⟨0, .line ("namespace " ++ schema.package ++ " \x7b")⟩

/-- The lines between those that open and close the namespace: the structures, each after an empty
line, and an empty line. -/
def insideNamespace (serializers : Bool) (schema : Schema) : List LayoutItem :=
  schema.messages.messages.flatMap (fun message => .line "" :: struct serializers message) ++
    [.line ""]

/-- The line that closes the namespace, as it is pushed. -/
def namespaceTail (schema : Schema) : Push :=
  ⟨0, .line ("\x7d  // namespace " ++ schema.package)⟩

/-- The lines after the namespace. -/
def afterNamespace (schema : Schema) : List LayoutItem :=
  [.line "", .line ("#endif  // " ++ includeGuard schema.package)]

/-- The lines of a header from the one that opens the namespace, as they are pushed. -/
def namespacePushes (serializers : Bool) (schema : Schema) : List Push :=
  namespaceHead schema :: (pushes 0 (insideNamespace serializers schema) ++
    namespaceTail schema :: pushes 0 (afterNamespace schema))

/-- The lines inside the namespace are nested. -/
theorem nested_insideNamespace (serializers : Bool) (schema : Schema) :
    Nested (insideNamespace serializers schema) :=
  (nested_structs serializers _).append (nested_line "")

/-- A header is nested. -/
theorem nested_layout (options : Options) (schema : Schema) : Nested (layout options schema) := by
  rw [layout_eq]
  exact (nested_opening options schema).append ((nested_structs _ _).append
    (.line _ (.line _ (.line _ (nested_line _)))))

/-- A header is pushed as its lines before the namespace, the namespace, and those after it. -/
theorem pushes_layout (options : Options) (schema : Schema) :
    pushes 0 (layout options schema) =
      pushes 0 (preamble schema.package options) ++
        namespacePushes options.serializers schema := by
  have hlayout : layout options schema =
      preamble schema.package options ++ .line ("namespace " ++ schema.package ++ " \x7b") ::
        (insideNamespace options.serializers schema ++
          .line ("\x7d  // namespace " ++ schema.package) :: afterNamespace schema) := by
    simp [layout, namespaceLines, insideNamespace, afterNamespace]
  have hinside : depthAfter 0 (insideNamespace options.serializers schema) = 0 :=
    (nested_insideNamespace options.serializers schema).level 0
  rw [hlayout, pushes_append, (nested_preamble schema.package options).level, pushes, depthAfter,
    depthAfter, pushes_append, hinside]
  rfl

/-- The line that opens the namespace opens a brace. -/
theorem braceDepth_namespaceHead {schema : Schema} (h : IsIdentifier schema.package) :
    braceDepth 0 ((namespaceHead schema).line ++ "\n") = some 1 := by
  have hhead : HasBraces 1 0 ("namespace " ++ schema.package ++ " \x7b") :=
    .append (braceless_append.2 ⟨hasBraces_literal rfl, h.braceless⟩) (hasBraces_literal rfl)
  rw [braceDepth_line, namespaceHead, LayoutItem.text, braceDepth_of_closings hhead.closings_eq,
    hhead.openings_eq]

/-- The line that closes the namespace closes a brace. -/
theorem braceDepth_namespaceTail {schema : Schema} (h : IsIdentifier schema.package) :
    braceDepth 1 ((namespaceTail schema).line ++ "\n") = some 0 := by
  have hmark : HasBraces 0 1 "\x7d  // namespace " := hasBraces_literal rfl
  have hopen : openings ("\x7d  // namespace " ++ schema.package) = 0 := by
    rw [openings_append, hmark.openings_eq, h.braceless.openings_eq]
  have hclose : closings ("\x7d  // namespace " ++ schema.package) = 1 := by
    rw [closings_append, hmark.closings_eq, h.braceless.closings_eq]
  have hdepth := braceDepth_of_openings hopen 0
  rw [hclose] at hdepth
  exact (braceDepth_line 1 (namespaceTail schema)).trans hdepth

/-- The lines after the namespace have no braces. -/
theorem braced_afterNamespace {schema : Schema} (h : IsIdentifier schema.package) :
    ∀ item ∈ afterNamespace schema, item.Braced := by
  have hguard : Braceless (includeGuard schema.package) :=
    .append (braceless_append.2 ⟨hasBraces_literal rfl, braceless_uppercase h.braceless⟩)
      (hasBraces_literal rfl)
  exact List.forall_mem_cons.2
    ⟨hasBraces_literal rfl, braced_line (.append (hasBraces_literal rfl) hguard)⟩

/-- The lines inside the namespace have the braces of their levels. -/
theorem braced_insideNamespace {schema : Schema} (h : schema.Closed) (serializers : Bool) :
    ∀ item ∈ insideNamespace serializers schema, item.Braced := by
  refine List.forall_mem_append.2 ⟨fun item hmem => ?_, braced_line (hasBraces_literal rfl)⟩
  obtain ⟨message, hmessage, hitem⟩ := List.mem_flatMap.1 hmem
  rcases List.mem_cons.1 hitem with rfl | hstruct
  · exact hasBraces_literal rfl
  · exact braced_struct (h.spellable message hmessage) serializers item hstruct

/-- After the namespace and the lines after it no brace is open. -/
theorem braceDepth_namespacePushes {schema : Schema} (h : schema.Closed) (serializers : Bool) :
    braceDepth 0 (textOf (namespacePushes serializers schema)) = some 0 := by
  have hinside : braceDepth 1 (textOf (pushes 0 (insideNamespace serializers schema))) = some 1 :=
    (nested_insideNamespace serializers schema).braceDepth_textOf
      (braced_insideNamespace h serializers) 0 1
  have hafter : braceDepth 0 (textOf (pushes 0 (afterNamespace schema))) = some 0 :=
    (Nested.line _ (nested_line _)).braceDepth_textOf (braced_afterNamespace h.package) 0 0
  rw [namespacePushes, textOf_cons, braceDepth_append, braceDepth_namespaceHead h.package,
    Option.bind_some, textOf_append, braceDepth_append, hinside, Option.bind_some, textOf_cons,
    braceDepth_append, braceDepth_namespaceTail h.package, Option.bind_some, hafter]

/-- The lines inside the namespace start with no spaces. -/
theorem startsPlain_insideNamespace {schema : Schema} (h : schema.Closed) (serializers : Bool) :
    AllTexts StartsPlain (insideNamespace serializers schema) := by
  have hblank : StartsPlain "" := by simp [StartsPlain]
  refine allTexts_append.2 ⟨allTexts_flatMap fun message hmessage => ?_,
    allTexts_cons.2 ⟨hblank, allTexts_nil⟩⟩
  exact allTexts_cons.2 ⟨hblank, startsPlain_struct (h.spellable message hmessage) serializers⟩

/-- A line inside the namespace that is not empty starts with four spaces for each level. -/
theorem leadingSpaces_insideNamespace {schema : Schema} (h : schema.Closed) {serializers : Bool}
    {push : Push} (hpush : push ∈ pushes 0 (insideNamespace serializers schema))
    (hline : push.line ≠ "") : leadingSpaces push.line = 4 * push.depth := by
  have hplain : StartsPlain push.item.text :=
    startsPlain_insideNamespace h serializers _ (item_mem_of_mem_pushes hpush)
  have htext : push.item.text ≠ "" := fun hempty => hline (if_pos hempty)
  exact leadingSpaces_indented hplain htext push.depth

/-- The indentation of a header follows its braces. The header is its lines as they are pushed:
those before the namespace, the one that opens it, those inside, the one that closes it, and those
after it, and these are the lines of the layout (`text_eq`, `pushes_eq`). No level is left where
none is open, and every level is left (`before_pos`, `depthAfter_eq`). From the line that opens the
namespace through a line inside it, one brace more is open than there are levels after that line
(`openings_eq`), and the braces to the end of the header are balanced. A line inside the namespace
that is not empty starts with four spaces for each level (`leadingSpaces_eq`). -/
structure IndentsByBraces (options : Options) (schema : Schema) : Prop where
  text_eq : text options schema =
    textOf (pushes 0 (preamble schema.package options)) ++
      textOf (namespacePushes options.serializers schema)
  pushes_eq : pushes 0 (layout options schema) =
    pushes 0 (preamble schema.package options) ++ namespacePushes options.serializers schema
  before_pos : ∀ push ∈ pushes 0 (layout options schema), ∀ line,
    push.item = .leave line → 0 < push.before
  depthAfter_eq : depthAfter 0 (layout options schema) = 0
  openings_eq : ∀ earlier push later,
    pushes 0 (insideNamespace options.serializers schema) = earlier ++ push :: later →
      openings (textOf (namespaceHead schema :: (earlier ++ [push]))) =
        closings (textOf (namespaceHead schema :: (earlier ++ [push]))) + (push.after + 1)
  balanced : Balanced (textOf (namespacePushes options.serializers schema))
  leadingSpaces_eq : ∀ push ∈ pushes 0 (insideNamespace options.serializers schema),
    push.line ≠ "" → leadingSpaces push.line = 4 * push.depth

end Header

open Layout

/-- The header of every schema that is compiled from a text, under any options, indents its lines by
their braces. -/
theorem indentation_follows_braces (sourceOptions options : Options) (source : String)
    (schema : Schema) (hschema : (compileSchema sourceOptions source).result = .ok schema) :
    Header.IndentsByBraces options schema where
  text_eq := by
    rw [Header.text, render_eq_renderAt, renderAt_eq_textOf, Header.pushes_layout, textOf_append]
  pushes_eq := Header.pushes_layout options schema
  before_pos push hpush line := (Header.nested_layout options schema).before_pos hpush
  depthAfter_eq := (Header.nested_layout options schema).level 0
  openings_eq := by
    have hclosed := closed_of_compileSchema hschema
    intro earlier push later hpushes
    have hinside := (Header.nested_insideNamespace options.serializers schema).braceDepth_through
      (Header.braced_insideNamespace hclosed options.serializers) hpushes 1
    have hdepth : Text.braceDepth 0
        (textOf (Header.namespaceHead schema :: (earlier ++ [push]))) = some (push.after + 1) := by
      rw [textOf_cons, Text.braceDepth_append, Header.braceDepth_namespaceHead hclosed.package]
      exact hinside
    have hsum := Text.openings_of_braceDepth hdepth
    rwa [Nat.zero_add] at hsum
  balanced := Text.balanced_of_braceDepth
    (Header.braceDepth_namespacePushes (closed_of_compileSchema hschema) options.serializers)
  leadingSpaces_eq _ hpush hline :=
    Header.leadingSpaces_insideNamespace (closed_of_compileSchema hschema) hpush hline

/-- The member of the first structure stands one level deep, after four spaces. -/
theorem shelfText_indentation :
    ∃ schema, (compileSchema .default shelfText).result = .ok schema ∧
      Header.IndentsByBraces ⟨true, true, []⟩ schema ∧
      ∃ push ∈ pushes 0 (Header.insideNamespace true schema),
        push.item = .line "const char * name;" ∧ push.depth = 1 ∧
        Text.leadingSpaces push.line = 4 := by
  have hschema := compileSchema_shelfText .default
  have hindents := indentation_follows_braces .default ⟨true, true, []⟩ _ _ hschema
  have hpush : ⟨1, .line "const char * name;"⟩ ∈ pushes 0 (Header.insideNamespace true
      (SchemaTree.onOneLine "store" shelfMessages).meaning) :=
    .tail _ (.tail _ (.head _))
  exact ⟨_, hschema, hindents, _, hpush, rfl, rfl, hindents.leadingSpaces_eq _ hpush (by decide)⟩

end SchemaCompiler
