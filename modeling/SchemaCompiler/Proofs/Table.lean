import Mathlib.Data.Finset.Card
import Mathlib.Data.List.Induction
import Mathlib.Data.List.Nodup
import SchemaCompiler.Schema.Table

/-!
# The messages of a table

A table is built by storing messages one after the other. `MessageTable.Indexed` is the invariant
that storing keeps: the index maps a name to a place exactly when the message at that place has the
name. From it follows what a table holds. `MessageTable.ofList_eq_listing` says that it lists the
names in the order of their first declaration, each with its last declaration, and
`MessageTable.table_follows_insertions` says what every lookup answers after any stores.
-/

namespace SchemaCompiler

/-- The last declaration of a name. -/
def lastDeclaration? (declared : List Message) (name : String) : Option Message :=
  (declared.filter (·.identifier == name)).getLast?

/-- The names of the declarations in the order of their first declaration, each with its last
declaration. -/
def lastDeclarations (declared : List Message) : List Message :=
  (declared.map (·.identifier)).eraseDups.filterMap (lastDeclaration? declared)

/-- The last declaration of a name is one of the declarations and has the name. -/
theorem lastDeclaration?_eq_some {declared : List Message} {name : String} {message : Message}
    (h : lastDeclaration? declared name = some message) :
    message ∈ declared ∧ message.identifier = name := by
  have hmem := List.mem_of_getLast? h
  simpa using hmem

/-- A name that is declared has a last declaration. -/
theorem exists_lastDeclaration? {declared : List Message} {name : String}
    (h : name ∈ declared.map (·.identifier)) :
    ∃ message, lastDeclaration? declared name = some message := by
  obtain ⟨message, hmem, rfl⟩ := List.mem_map.1 h
  refine Option.ne_none_iff_exists'.1 fun hnone => ?_
  have hfilter := List.getLast?_eq_none_iff.1 hnone
  simpa using List.filter_eq_nil_iff.1 hfilter message hmem

/-- A further declaration is the last one of its own name. -/
theorem lastDeclaration?_snoc_self (declared : List Message) (message : Message) :
    lastDeclaration? (declared ++ [message]) message.identifier = some message := by
  simp [lastDeclaration?]

/-- A further declaration leaves the last declarations of the other names as they are. -/
theorem lastDeclaration?_snoc_of_ne {declared : List Message} {message : Message} {name : String}
    (h : message.identifier ≠ name) :
    lastDeclaration? (declared ++ [message]) name = lastDeclaration? declared name := by
  simp [lastDeclaration?, h]

/-- A message is listed exactly when it is the last declaration of its name. -/
theorem mem_lastDeclarations {declared : List Message} {message : Message} :
    message ∈ lastDeclarations declared ↔
      lastDeclaration? declared message.identifier = some message := by
  rw [lastDeclarations, List.mem_filterMap]
  constructor
  · rintro ⟨name, -, hlast⟩
    rwa [(lastDeclaration?_eq_some hlast).2]
  · intro hlast
    refine ⟨message.identifier, List.mem_eraseDups.2 ?_, hlast⟩
    exact List.mem_map_of_mem (lastDeclaration?_eq_some hlast).1

/-- A declaration of a new name is listed last. -/
theorem lastDeclarations_snoc_fresh {declared : List Message} {message : Message}
    (h : message.identifier ∉ declared.map (·.identifier)) :
    lastDeclarations (declared ++ [message]) = lastDeclarations declared ++ [message] := by
  have hnames : ((declared ++ [message]).map (·.identifier)).eraseDups =
      (declared.map (·.identifier)).eraseDups ++ [message.identifier] := by
    rw [List.map_append, List.eraseDups_append]
    simp only [List.map_cons, List.map_nil, List.cons_removeAll, List.nil_removeAll]
    rw [if_pos (by simpa using h), List.eraseDups_cons]
    rfl
  rw [lastDeclarations, hnames, List.filterMap_append]
  congr 1
  · refine List.filterMap_congr fun name hname => lastDeclaration?_snoc_of_ne ?_
    rintro rfl
    exact h (List.mem_eraseDups.1 hname)
  · simp [lastDeclaration?_snoc_self]

/-- A declaration of a known name takes the place of the earlier declaration. -/
theorem lastDeclarations_snoc_known {declared : List Message} {message : Message}
    (h : message.identifier ∈ declared.map (·.identifier)) :
    lastDeclarations (declared ++ [message]) =
      (lastDeclarations declared).map fun earlier =>
        if earlier.identifier = message.identifier then message else earlier := by
  have hnames : ((declared ++ [message]).map (·.identifier)).eraseDups =
      (declared.map (·.identifier)).eraseDups := by
    rw [List.map_append, List.eraseDups_append]
    simp only [List.map_cons, List.map_nil, List.cons_removeAll, List.nil_removeAll]
    rw [if_neg (by simpa using h)]
    simp
  rw [lastDeclarations, hnames, lastDeclarations, List.map_filterMap]
  refine List.filterMap_congr fun name hname => ?_
  obtain ⟨earlier, hearlier⟩ := exists_lastDeclaration? (List.mem_eraseDups.1 hname)
  have hidentifier := (lastDeclaration?_eq_some hearlier).2
  rw [hearlier, Option.map_some, hidentifier]
  by_cases hsame : message.identifier = name
  · subst hsame
    rw [lastDeclaration?_snoc_self, if_pos rfl]
  · rw [lastDeclaration?_snoc_of_ne hsame, hearlier, if_neg (Ne.symm hsame)]

/-- The names are listed in the order of their first declaration. -/
theorem lastDeclarations_names (declared : List Message) :
    (lastDeclarations declared).map (·.identifier) =
      (declared.map (·.identifier)).eraseDups := by
  rw [lastDeclarations, List.map_filterMap]
  refine Eq.trans (List.filterMap_congr fun name hname => ?_) List.filterMap_some
  obtain ⟨message, hmessage⟩ := exists_lastDeclaration? (List.mem_eraseDups.1 hname)
  rw [hmessage, Option.map_some, (lastDeclaration?_eq_some hmessage).2]

namespace MessageTable

/-- The index maps a name to a place exactly when the message at that place has the name. -/
def Indexed (table : MessageTable) : Prop :=
  ∀ (name : String) (place : Nat), table.index[name]? = some place ↔ table.names[place]? = some name

/-- The table that lists the given messages in their order. -/
def listing (messages : List Message) : MessageTable where
  index := .ofList (messages.map (·.identifier)).zipIdx
  messages := messages

/-- The table without messages is indexed. -/
theorem indexed_empty : empty.Indexed := by
  intro name place
  simp [empty, names]

variable {table : MessageTable}

/-- No two messages of an indexed table have the same name. -/
theorem Indexed.names_nodup (h : table.Indexed) : table.names.Nodup := by
  rw [List.nodup_iff_getElem?_ne_getElem?]
  intro first second hlt hlength hsame
  obtain ⟨name, hname⟩ : ∃ name, table.names[second]? = some name :=
    ⟨_, List.getElem?_eq_getElem hlength⟩
  have hfirst := (h name first).2 (hsame.trans hname)
  rw [(h name second).2 hname] at hfirst
  exact Nat.ne_of_gt hlt (Option.some.inj hfirst)

/-- The names that an indexed table knows are those of its messages. -/
theorem Indexed.contains_iff (h : table.Indexed) (name : String) :
    table.contains name = true ↔ name ∈ table.names := by
  rw [contains, Std.ExtTreeMap.contains_eq_isSome_getElem?, Option.isSome_iff_exists,
    List.mem_iff_getElem?]
  exact exists_congr (h name)

/-- An indexed table is determined by its messages. -/
theorem Indexed.eq_of_messages_eq {other : MessageTable} (h : table.Indexed)
    (hother : other.Indexed) (hmessages : table.messages = other.messages) : table = other := by
  obtain ⟨index, messages⟩ := table
  obtain ⟨otherIndex, otherMessages⟩ := other
  obtain rfl : messages = otherMessages := hmessages
  have hindex : index = otherIndex := by
    refine Std.ExtTreeMap.ext_getElem? fun name => Option.ext fun place => ?_
    exact (h name place).trans (hother name place).symm
  rw [hindex]

/-- A listing of messages with different names is indexed. -/
theorem indexed_listing {messages : List Message}
    (h : (messages.map (·.identifier)).Nodup) : (listing messages).Indexed := by
  intro name place
  show (listing messages).index[name]? = some place ↔
    (messages.map (·.identifier))[place]? = some name
  have hdistinct : (messages.map (·.identifier)).zipIdx.Pairwise
      (fun first second => ¬ compare first.1 second.1 = .eq) := by
    rw [← List.zipIdx_map_fst 0 (messages.map (·.identifier)), List.Nodup, List.pairwise_map] at h
    exact h.imp fun hne heq => hne (Std.LawfulEqCmp.eq_of_compare heq)
  -- The names are different, so each entry of the list is found under its name.
  have hplace {entry : String} {found : Nat}
      (hentry : (messages.map (·.identifier))[found]? = some entry) :
      (listing messages).index[entry]? = some found :=
    Std.ExtTreeMap.getElem?_ofList_of_mem Std.ReflCmp.compare_self hdistinct
      (List.mem_zipIdx_iff_getElem?.2 hentry)
  constructor
  · intro hindex
    have hmem : name ∈ (listing messages).index :=
      Std.ExtTreeMap.mem_iff_isSome_getElem?.2 (by rw [hindex]; rfl)
    have hname : name ∈ messages.map (·.identifier) := by
      simpa [listing, List.zipIdx_map_fst] using hmem
    obtain ⟨found, hfound⟩ := List.mem_iff_getElem?.1 hname
    obtain rfl : found = place := Option.some.inj ((hplace hfound).symm.trans hindex)
    exact hfound
  · exact hplace

/-- A message with a new name is stored at the end. -/
theorem Indexed.put_fresh (h : table.Indexed) {message : Message}
    (hname : message.identifier ∉ table.names) :
    table.put message =
      (none,
        { index := table.index.insert message.identifier table.size
          messages := table.messages ++ [message] }) := by
  have hnone : table.index[message.identifier]? = none := by
    refine Option.eq_none_iff_forall_ne_some.2 fun place hplace => hname ?_
    exact List.mem_of_getElem? ((h _ _).1 hplace)
  rw [put, hnone]

/-- A message with a known name is stored in the place of the earlier message of that name. -/
theorem Indexed.put_known (h : table.Indexed) {message : Message} {place : Nat}
    (hname : table.names[place]? = some message.identifier) :
    table.put message =
      (table.messages[place]?, { table with messages := table.messages.set place message }) := by
  rw [put, (h _ _).2 hname]

/-- Storing a message under a known name keeps the names and their order. -/
theorem names_set {messages : List Message} {message : Message} {place : Nat}
    (hname : (messages.map (·.identifier))[place]? = some message.identifier) :
    (messages.set place message).map (·.identifier) = messages.map (·.identifier) := by
  rw [List.map_set]
  refine List.ext_getElem? fun other => ?_
  rw [List.getElem?_set]
  split
  · next hsame =>
    subst hsame
    rw [if_pos (List.getElem?_eq_some_iff.1 hname).1, hname]
  · rfl

/-- Storing a message keeps a table indexed. -/
theorem Indexed.insert (h : table.Indexed) (message : Message) :
    (table.insert message).Indexed := by
  intro name place
  by_cases hmem : message.identifier ∈ table.names
  · obtain ⟨known, hknown⟩ := List.mem_iff_getElem?.1 hmem
    rw [MessageTable.insert, h.put_known hknown, names, names_set hknown]
    exact h name place
  · rw [MessageTable.insert, h.put_fresh hmem]
    show (table.index.insert message.identifier table.size)[name]? = some place ↔
      ((table.messages ++ [message]).map (·.identifier))[place]? = some name
    rw [Std.ExtTreeMap.getElem?_insert, List.map_append]
    by_cases hsame : message.identifier = name
    · subst hsame
      rw [if_pos Std.ReflCmp.compare_self, Option.some.injEq]
      constructor
      · rintro rfl
        simp [size]
      · intro hplace
        -- A place before the end would hold the name already.
        by_cases hlt : place < (table.messages.map (·.identifier)).length
        · rw [List.getElem?_append_left hlt] at hplace
          exact absurd (List.mem_of_getElem? hplace) hmem
        · rw [List.getElem?_append_right (Nat.le_of_not_lt hlt)] at hplace
          have hlength := (List.getElem?_eq_some_iff.1 hplace).1
          simp [size] at hlt hlength ⊢
          omega
    · rw [if_neg fun heq => hsame (Std.LawfulEqCmp.eq_of_compare heq), h name place]
      show table.names[place]? = some name ↔
        (table.names ++ [message.identifier])[place]? = some name
      rw [List.getElem?_append]
      split
      · rfl
      · next hge =>
        rw [List.getElem?_eq_none (Nat.le_of_not_lt hge), List.getElem?_singleton]
        split <;> simp [hsame]

/-- What an indexed table holds after a message is stored. -/
theorem Indexed.messages_insert (h : table.Indexed) (message : Message) :
    (table.insert message).messages =
      if message.identifier ∈ table.names then
        table.messages.map fun earlier =>
          if earlier.identifier = message.identifier then message else earlier
      else table.messages ++ [message] := by
  split
  · next hmem =>
    obtain ⟨place, hplace⟩ := List.mem_iff_getElem?.1 hmem
    rw [MessageTable.insert, h.put_known hplace]
    show table.messages.set place message = _
    refine List.ext_getElem? fun other => ?_
    rw [List.getElem?_map, List.getElem?_set]
    split
    · next hsame =>
      subst hsame
      rw [names, List.getElem?_map] at hplace
      obtain ⟨earlier, hearlier, hname⟩ := Option.map_eq_some_iff.1 hplace
      rw [if_pos (List.getElem?_eq_some_iff.1 hearlier).1, hearlier, Option.map_some, if_pos hname]
    · next hne =>
      cases hother : table.messages[other]? with
      | none => rfl
      | some earlier =>
          -- The index has one place for each name, so no message elsewhere has this one.
          have hname : earlier.identifier ≠ message.identifier := by
            intro heq
            have hindex := (h message.identifier other).2 (by simp [names, hother, heq])
            rw [(h _ _).2 hplace] at hindex
            exact hne (Option.some.inj hindex)
          rw [Option.map_some, if_neg hname]
  · next hmem => rw [MessageTable.insert, h.put_fresh hmem]

/-- A store changes one place of a table: a message takes the place of the one that is given back,
or stands at the end if there is none. -/
theorem Indexed.exists_messages_insert (h : table.Indexed) (message : Message) :
    ∃ before after : List Message,
      table.messages = before ++ (table.put message).1.toList ++ after ∧
      (table.insert message).messages = before ++ message :: after := by
  by_cases hmem : message.identifier ∈ table.names
  · obtain ⟨place, hplace⟩ := List.mem_iff_getElem?.1 hmem
    have hlength : place < table.messages.length := by
      simpa [names] using (List.getElem?_eq_some_iff.1 hplace).1
    refine ⟨table.messages.take place, table.messages.drop (place + 1), ?_, ?_⟩
    · rw [h.put_known hplace, List.getElem?_eq_getElem hlength]
      simp
    · rw [MessageTable.insert, h.put_known hplace]
      exact List.set_eq_take_append_cons_drop.trans (if_pos hlength)
  · refine ⟨table.messages, [], ?_, ?_⟩
    · rw [h.put_fresh hmem]
      simp
    · rw [MessageTable.insert, h.put_fresh hmem]

/-- A table is indexed after any sequence of stores. -/
theorem indexed_foldl_insert (messages : List Message) (h : table.Indexed) :
    (messages.foldl insert table).Indexed := by
  induction messages generalizing table with
  | nil => exact h
  | cons message rest ih => exact ih (h.insert message)

/-- Every table that is built from a list is indexed. -/
theorem indexed_ofList (declared : List Message) : (ofList declared).Indexed :=
  indexed_foldl_insert declared indexed_empty

/-- A further declaration is stored in the table of the earlier ones. -/
theorem ofList_snoc (declared : List Message) (message : Message) :
    ofList (declared ++ [message]) = (ofList declared).insert message := by
  rw [ofList, List.foldl_append]
  rfl

/-- A table lists the names in the order of their first declaration, each with its last
declaration. -/
theorem messages_ofList (declared : List Message) :
    (ofList declared).messages = lastDeclarations declared := by
  induction declared using List.reverseRecOn with
  | nil => rfl
  | append_singleton declared message ih =>
      have hmem : message.identifier ∈ (ofList declared).names ↔
          message.identifier ∈ declared.map (·.identifier) := by
        rw [names, ih, lastDeclarations_names, List.mem_eraseDups]
      rw [ofList_snoc, (indexed_ofList declared).messages_insert, ih]
      split
      · next h => rw [lastDeclarations_snoc_known (hmem.1 h)]
      · next h => rw [lastDeclarations_snoc_fresh (mt hmem.2 h)]

/-- The names of a table are those that were declared. -/
theorem mem_names_ofList {declared : List Message} {name : String} :
    name ∈ (ofList declared).names ↔ name ∈ declared.map (·.identifier) := by
  rw [names, messages_ofList, lastDeclarations_names, List.mem_eraseDups]

/-- The table of a list of declarations is the listing of the last ones. -/
theorem ofList_eq_listing (declared : List Message) :
    ofList declared = listing (lastDeclarations declared) := by
  have hnodup : ((lastDeclarations declared).map (·.identifier)).Nodup := by
    rw [← messages_ofList]
    exact (indexed_ofList declared).names_nodup
  exact (indexed_ofList declared).eq_of_messages_eq (indexed_listing hnodup)
    (messages_ofList declared)

/-! ## Lookups -/

/-- The index of an indexed table leads to the places of its messages and nowhere else. -/
theorem Indexed.index_eq_some_iff (h : table.Indexed) {name : String} {place : Nat} :
    table.index[name]? = some place ↔
      ∃ hplace : place < table.messages.length, table.messages[place].identifier = name := by
  rw [h name place, names, List.getElem?_map, Option.map_eq_some_iff]
  constructor
  · rintro ⟨message, hmessage, rfl⟩
    obtain ⟨hplace, rfl⟩ := List.getElem?_eq_some_iff.1 hmessage
    exact ⟨hplace, rfl⟩
  · rintro ⟨hplace, rfl⟩
    exact ⟨_, List.getElem?_eq_getElem hplace, rfl⟩

/-- A lookup in an indexed table finds the message of a name. -/
theorem Indexed.get?_eq_some_iff (h : table.Indexed) {name : String} {message : Message} :
    table.get? name = some message ↔ message ∈ table.messages ∧ message.identifier = name := by
  rw [get?, Option.bind_eq_some_iff, List.mem_iff_getElem?]
  constructor
  · rintro ⟨place, hindex, hmessage⟩
    obtain ⟨hplace, rfl⟩ := h.index_eq_some_iff.1 hindex
    rw [List.getElem?_eq_getElem hplace, Option.some.injEq] at hmessage
    exact ⟨⟨place, by rw [List.getElem?_eq_getElem hplace, hmessage]⟩, by rw [hmessage]⟩
  · rintro ⟨⟨place, hmessage⟩, rfl⟩
    obtain ⟨hplace, rfl⟩ := List.getElem?_eq_some_iff.1 hmessage
    exact ⟨place, h.index_eq_some_iff.2 ⟨hplace, rfl⟩, hmessage⟩

/-- A lookup in an indexed table finds a message for every name that the table knows. -/
theorem Indexed.isSome_get? (h : table.Indexed) (name : String) :
    (table.get? name).isSome = table.contains name := by
  rw [Bool.eq_iff_iff, h.contains_iff, Option.isSome_iff_exists, names, List.mem_map]
  exact exists_congr fun _ => h.get?_eq_some_iff

/-- Storing a message gives back what was stored under its name before. -/
theorem put_fst (table : MessageTable) (message : Message) :
    (table.put message).1 = table.get? message.identifier := by
  rw [put, get?]
  cases table.index[message.identifier]? <;> rfl

/-- A lookup finds the last declaration of a name. -/
theorem get?_ofList (declared : List Message) (name : String) :
    (ofList declared).get? name = lastDeclaration? declared name := by
  refine Option.ext fun message => ?_
  rw [(indexed_ofList declared).get?_eq_some_iff, messages_ofList, mem_lastDeclarations]
  constructor
  · rintro ⟨hlast, rfl⟩
    exact hlast
  · intro hlast
    obtain rfl := (lastDeclaration?_eq_some hlast).2
    exact ⟨hlast, rfl⟩

/-- A table has as many messages as names were declared. -/
theorem size_ofList (declared : List Message) :
    (ofList declared).size = (declared.map (·.identifier)).toFinset.card := by
  have hnames : (ofList declared).names.toFinset = (declared.map (·.identifier)).toFinset := by
    ext name
    rw [List.mem_toFinset, List.mem_toFinset, mem_names_ofList]
  rw [← hnames, List.toFinset_card_of_nodup (indexed_ofList declared).names_nodup, names,
    List.length_map, size]

/-- After any stores into the table without messages, the index maps a name to a place exactly when
the message at that place has the name, so that a lookup finds a message for every known name. The
names are different and stand in the order of their first stores, each with the message that was
stored last. A further store gives back what was found before it, the size is the number of
different names, and the messages alone tell two tables apart. -/
theorem table_follows_insertions (inserted : List Message) :
    (∀ (name : String) (place : Nat), (ofList inserted).index[name]? = some place ↔
      ∃ hplace : place < (ofList inserted).messages.length,
        (ofList inserted).messages[place].identifier = name) ∧
    (∀ name : String, ((ofList inserted).get? name).isSome = (ofList inserted).contains name) ∧
    (∀ name : String, (ofList inserted).contains name = true ↔ name ∈ (ofList inserted).names) ∧
    (ofList inserted).names.Nodup ∧
    (ofList inserted).names = (inserted.map (·.identifier)).eraseDups ∧
    (∀ name : String, (ofList inserted).get? name =
      (inserted.filter (·.identifier == name)).getLast?) ∧
    (∀ next : Message, ofList (inserted ++ [next]) = ((ofList inserted).put next).2 ∧
      ((ofList inserted).put next).1 = (ofList inserted).get? next.identifier) ∧
    (ofList inserted).size = (inserted.map (·.identifier)).toFinset.card ∧
    (∀ other : List Message, ofList inserted = ofList other ↔
      (ofList inserted).messages = (ofList other).messages) := by
  have hindexed := indexed_ofList inserted
  refine ⟨fun _ _ => hindexed.index_eq_some_iff, hindexed.isSome_get?, hindexed.contains_iff,
    hindexed.names_nodup, ?_, get?_ofList inserted, fun next => ⟨ofList_snoc inserted next, ?_⟩,
    size_ofList inserted, fun other => ⟨fun heq => heq ▸ rfl, fun hmessages => ?_⟩⟩
  · rw [names, messages_ofList, lastDeclarations_names]
  · exact put_fst (ofList inserted) next
  · exact hindexed.eq_of_messages_eq (indexed_ofList other) hmessages

end MessageTable

end SchemaCompiler
