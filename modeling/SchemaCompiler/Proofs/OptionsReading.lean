import Mathlib.Data.List.Forall2
import Mathlib.Data.List.Nodup
import SchemaCompiler.Options.Read
import SchemaCompiler.Proofs.JsonGrammar

/-!
# Options are read from exactly the texts that give them

A text gives options when it is a JSON value with spaces around it, and the value is an object or a
list of settings (`Options.GivenBy`). An object has a member for each setting that is given, in any
order and none of them twice. A list has the values of the first settings in their order. The
settings that are not given have their defaults.

`options_read_exactly_where_given` says that the reader accepts these texts and no others. Both
forms are read setting by setting, so the argument rests on one step: reading the value of a setting
changes that setting to the value that stands in the text, and no other one
(`Setting.read_eq_ok_iff`). Steps are put together by `Options.changesOnly_cons_iff`.
-/

namespace SchemaCompiler

open Json

/-! ## Options and their settings -/

/-- A key names the setting that has it. -/
theorem Setting.ofKey?_eq_some_iff {key : String} {setting : Setting} :
    ofKey? key = some setting ↔ key = setting.key := by
  constructor
  · intro h
    have hkey := List.find?_some h
    exact (beq_iff_eq.1 hkey).symm
  · rintro rfl
    cases setting <;> decide

/-- Settings have different keys. -/
theorem Setting.key_injective : Function.Injective Setting.key := by
  intro setting other h
  have hfound := ofKey?_eq_some_iff.2 h
  rw [ofKey?_eq_some_iff.2 rfl] at hfound
  exact Option.some.inj hfound

namespace Options

/-- The value of a setting. -/
def value (options : Options) : Setting → Value
  | .allowRedefinition => .flag options.allowRedefinition
  | .serializers => .flag options.serializers
  | .banner => .list (options.banner.map .text)

/-- A setting as a member of an object. -/
def member (options : Options) (setting : Setting) : String × Value :=
  (setting.key, options.value setting)

/-- Options have the values of other ones in all settings but the given ones. -/
def ChangesOnly (start : Options) (given : List Setting) (options : Options) : Prop :=
  ∀ setting, setting ∉ given → options.value setting = start.value setting

/-- A value gives options: an object whose members are some settings, each of them once, or a list
of the values of the first settings. -/
inductive GivenBy (options : Options) : Value → Prop where
  | object {given : List Setting} (hdistinct : given.Nodup)
      (hothers : Options.default.ChangesOnly given options) :
      GivenBy options (.object (given.map options.member))
  | list {given : List Setting} (hfirst : given <+: Setting.all)
      (hothers : Options.default.ChangesOnly given options) :
      GivenBy options (.list (given.map options.value))

end Options

/-- The values that a setting can have: truth values, and a list of strings for the banner. -/
inductive Setting.Admits : Setting → Value → Prop where
  | allowRedefinition (value : Bool) : Admits .allowRedefinition (.flag value)
  | serializers (value : Bool) : Admits .serializers (.flag value)
  | banner (lines : List String) : Admits .banner (.list (lines.map .text))

/-- A value is an object or a list of settings. The keys of an object are those of settings, none of
them twice, and a list has values of the first settings, in their order. -/
inductive IsSettings : Value → Prop where
  | object {members : List (String × Value)} (hdistinct : (members.map Prod.fst).Nodup)
      (hknown : ∀ member ∈ members, ∃ setting : Setting,
        setting.key = member.1 ∧ setting.Admits member.2) : IsSettings (.object members)
  | list {items : List Value}
      (h : List.Forall₂ Setting.Admits (Setting.all.take items.length) items) :
      IsSettings (.list items)

namespace Options

/-- Options with the same values in all settings are the same. -/
theorem eq_of_value_eq {options other : Options}
    (h : ∀ setting, options.value setting = other.value setting) : options = other := by
  obtain ⟨allow, serializers, banner⟩ := options
  obtain ⟨otherAllow, otherSerializers, otherBanner⟩ := other
  have hallow := h .allowRedefinition
  have hserializers := h .serializers
  have hbanner := h .banner
  simp only [value, Value.flag.injEq, Value.list.injEq] at hallow hserializers hbanner
  rw [hallow, hserializers, (List.map_inj_right fun _ _ => Value.text.inj).1 hbanner]

/-- Nothing changes where no setting is given. -/
theorem changesOnly_nil_iff {start options : Options} :
    start.ChangesOnly [] options ↔ options = start := by
  constructor
  · exact fun h => eq_of_value_eq fun setting => h setting List.not_mem_nil
  · rintro rfl
    exact fun _ _ => rfl

/-- Options with one setting taken from others. -/
def taking (start : Options) (setting : Setting) (options : Options) : Options :=
  match setting with
  | .allowRedefinition => { start with allowRedefinition := options.allowRedefinition }
  | .serializers => { start with serializers := options.serializers }
  | .banner => { start with banner := options.banner }

/-- The value of a setting after one setting was taken from others. -/
theorem value_taking (start options : Options) (setting other : Setting) :
    (start.taking setting options).value other =
      if other = setting then options.value other else start.value other := by
  cases setting <;> cases other <;> rfl

/-- Options that differ in one setting only are given by that setting. -/
theorem changesOnly_singleton_iff {start options : Options} {setting : Setting} :
    start.ChangesOnly [setting] options ↔ start.taking setting options = options := by
  constructor
  · refine fun h => eq_of_value_eq fun other => ?_
    rw [value_taking]
    split_ifs with hother
    · rfl
    · exact (h other (by simp [hother])).symm
  · intro h other hother
    rw [← h, value_taking, if_neg (by simpa using hother)]

/-- Several settings are changed by changing the first of them and then the others. -/
theorem changesOnly_cons_iff {start options : Options} {setting : Setting} {given : List Setting} :
    start.ChangesOnly (setting :: given) options ↔
      ∃ middle, start.ChangesOnly [setting] middle ∧
        middle.value setting = options.value setting ∧ middle.ChangesOnly given options := by
  constructor
  · intro h
    refine ⟨start.taking setting options, fun other hother => ?_, ?_, fun other hother => ?_⟩
    · rw [value_taking, if_neg (by simpa using hother)]
    · rw [value_taking, if_pos rfl]
    · rw [value_taking]
      split_ifs with hsame
      · rfl
      · exact h other (by simp [hsame, hother])
  · rintro ⟨middle, hmiddle, hvalue, h⟩ other hother
    rw [List.mem_cons, not_or] at hother
    rw [h other hother.2, hmiddle other (by simp [hother.1])]

end Options

/-- A setting admits its value in all options. -/
theorem Setting.admits_value (setting : Setting) (options : Options) :
    setting.Admits (options.value setting) := by
  cases setting with
  | allowRedefinition => exact .allowRedefinition _
  | serializers => exact .serializers _
  | banner => exact .banner _

/-- A value that a setting admits is its value in some options. -/
theorem Setting.Admits.exists_value {setting : Setting} {value : Value}
    (h : setting.Admits value) : ∃ options : Options, options.value setting = value := by
  cases h with
  | allowRedefinition value => exact ⟨{ allowRedefinition := value }, rfl⟩
  | serializers value => exact ⟨{ serializers := value }, rfl⟩
  | banner lines => exact ⟨{ banner := lines }, rfl⟩

/-- Settings with values that they admit are given by some options. -/
theorem exists_options_of_admits {given : List Setting} {values : List Value}
    (hdistinct : given.Nodup) (h : List.Forall₂ Setting.Admits given values) :
    ∃ options : Options, given.map options.value = values ∧
      Options.default.ChangesOnly given options := by
  induction h with
  | nil => exact ⟨.default, rfl, fun _ _ => rfl⟩
  | @cons setting value given values hvalue _ ih =>
      obtain ⟨hnew, hothers⟩ := List.nodup_cons.1 hdistinct
      obtain ⟨options, hvalues, hchanges⟩ := ih hothers
      obtain ⟨source, hsource⟩ := hvalue.exists_value
      refine ⟨options.taking setting source, ?_, fun other hother => ?_⟩
      · rw [List.map_cons, Options.value_taking, if_pos rfl, hsource, ← hvalues]
        congr 1
        refine List.map_congr_left fun other hother => ?_
        rw [Options.value_taking, if_neg]
        rintro rfl
        exact hnew hother
      · rw [List.mem_cons, not_or] at hother
        rw [Options.value_taking, if_neg hother.1]
        exact hchanges other hother.2

/-- Members with known keys are settings with values that they admit. -/
theorem exists_settings_of_members {members : List (String × Value)}
    (hknown : ∀ member ∈ members, ∃ setting : Setting,
      setting.key = member.1 ∧ setting.Admits member.2) :
    ∃ given : List Setting, members.map Prod.fst = given.map Setting.key ∧
      List.Forall₂ Setting.Admits given (members.map Prod.snd) := by
  induction members with
  | nil => exact ⟨[], rfl, .nil⟩
  | cons member members ih =>
      obtain ⟨setting, hkey, hvalue⟩ := hknown member List.mem_cons_self
      obtain ⟨given, hkeys, hvalues⟩ := ih fun other hother =>
        hknown other (List.mem_cons_of_mem _ hother)
      exact ⟨setting :: given, by rw [List.map_cons, List.map_cons, hkey, hkeys],
        .cons hvalue hvalues⟩

/-- Settings give options. -/
theorem IsSettings.exists_givenBy {value : Value} (h : IsSettings value) :
    ∃ options : Options, options.GivenBy value := by
  cases h with
  | @object members hdistinct hknown =>
      obtain ⟨given, hkeys, hvalues⟩ := exists_settings_of_members hknown
      rw [hkeys] at hdistinct
      obtain ⟨options, hoptions, hothers⟩ := exists_options_of_admits hdistinct.of_map hvalues
      have hmembers : members = given.map options.member := by
        rw [List.zip_of_prod hkeys hoptions.symm, List.zip_map']
        rfl
      rw [hmembers]
      exact ⟨options, .object hdistinct.of_map hothers⟩
  | list h =>
      have hall : Setting.all.Nodup := by decide
      obtain ⟨options, hoptions, hothers⟩ :=
        exists_options_of_admits (hall.sublist (List.take_sublist ..)) h
      rw [← hoptions]
      exact ⟨options, .list (List.take_prefix ..) hothers⟩

/-- What gives options is an object or a list of settings. -/
theorem Options.GivenBy.isSettings {options : Options} {value : Value}
    (h : options.GivenBy value) : IsSettings value := by
  cases h with
  | @object given hdistinct hothers =>
      refine .object ?_ fun member hmember => ?_
      · rw [List.map_map]
        exact hdistinct.map Setting.key_injective
      · obtain ⟨setting, -, rfl⟩ := List.mem_map.1 hmember
        exact ⟨setting, rfl, setting.admits_value options⟩
  | @list given hfirst hothers =>
      refine .list ?_
      rw [List.length_map, ← List.prefix_iff_eq_take.1 hfirst, List.forall₂_map_right_iff,
        List.forall₂_same]
      exact fun setting _ => setting.admits_value options

/-- A value that is read and put into options is the one that they have afterwards. -/
theorem map_put_eq_ok_iff {α : Type} {step : Except Fault (α × List Char)} (put : α → Options)
    (get : Options → α) (hget : ∀ value, get (put value) = value) {after : Options}
    {rest : List Char} :
    step.map (fun (value, rest) => (put value, rest)) = .ok (after, rest) ↔
      put (get after) = after ∧ step = .ok (get after, rest) := by
  rw [map_eq_ok_iff]
  constructor
  · rintro ⟨⟨value, left⟩, hstep, hsame⟩
    cases hsame
    rw [hget]
    exact ⟨rfl, hstep⟩
  · rintro ⟨hsame, hstep⟩
    exact ⟨_, hstep, Prod.ext hsame rfl⟩

/-- Reading a setting takes its value from the text and changes no other setting. -/
theorem Setting.read_eq_ok_iff {setting : Setting} {options after : Options}
    {text rest : List Char} :
    setting.read options text = .ok (after, rest) ↔
      options.ChangesOnly [setting] after ∧
        ∃ start, Spaced text start ∧ ValueAt start (after.value setting) rest := by
  rw [Options.changesOnly_singleton_iff]
  cases setting with
  | allowRedefinition =>
      exact (map_put_eq_ok_iff (fun value => { options with allowRedefinition := value })
        Options.allowRedefinition fun _ => rfl).trans (and_congr_right fun _ => readFlag_eq_ok_iff)
  | serializers =>
      exact (map_put_eq_ok_iff (fun value => { options with serializers := value })
        Options.serializers fun _ => rfl).trans (and_congr_right fun _ => readFlag_eq_ok_iff)
  | banner =>
      exact (map_put_eq_ok_iff (fun value => { options with banner := value })
        Options.banner fun _ => rfl).trans (and_congr_right fun _ => readTextList_eq_ok_iff)

/-! ## Objects -/

namespace Options

/-- There is no further key where the object is closed. -/
theorem nextKey_eq_ok_false_iff {first : Bool} {text rest : List Char} :
    nextKey first text = .ok (false, rest) ↔ Spaced text ('\x7d' :: rest) := by
  rw [← skipSpace_eq_cons_iff rfl]
  constructor
  · intro h
    unfold nextKey at h
    split at h
    · cases h
    · next tail hskip =>
      cases h
      exact hskip
    · split at h
      · split at h <;> cases h
      · split at h
        · split at h <;> cases h
        · cases h
  · intro h
    rw [nextKey, h]
    rfl

/-- A further key is found where its opening quote is due. -/
theorem nextKey_eq_ok_true_iff {first : Bool} {text rest : List Char} :
    nextKey first text = .ok (true, rest) ↔ Due first text ('"' :: rest) := by
  constructor
  · intro h
    unfold nextKey at h
    split at h
    · cases h
    · cases h
    · next c tail _ hskip =>
      have hspace := spaced_skipSpace text
      rw [hskip] at hspace
      split at h
      · next hfirst =>
        split at h
        · next hquote =>
          cases h
          rw [Due, if_pos hfirst, ← hquote]
          exact hspace
        · cases h
      · next hfirst =>
        split at h
        · next hcomma =>
          rw [Due, if_neg hfirst]
          refine ⟨tail, hcomma ▸ hspace, ?_⟩
          split at h
          · cases h
          · next hquote =>
            cases h
            exact (skipSpace_eq_cons_iff rfl).1 hquote
          · cases h
          · cases h
        · cases h
  · intro h
    cases first with
    | true =>
        have hskip : skipSpace text = '"' :: rest := Spaced.skipSpace_eq_cons h rfl
        rw [nextKey, hskip]
        rfl
    | false =>
        obtain ⟨next, hcomma, hnext⟩ := h
        simp [nextKey, hcomma.skipSpace_eq_cons rfl, hnext.skipSpace_eq_cons rfl]

/-- The colon after a key is read where it stands after spaces. -/
theorem readColon_eq_ok_iff {text rest : List Char} :
    readColon text = .ok rest ↔ Spaced text (':' :: rest) := by
  rw [← skipSpace_eq_cons_iff rfl]
  constructor
  · intro h
    unfold readColon at h
    split at h
    · cases h
    · next tail hskip =>
      cases h
      exact hskip
    · cases h
  · intro h
    rw [readColon, h]
    rfl

/-- The members of an object are read where each of them is a setting that is still pending. -/
theorem readMembers_eq_ok_iff {first : Bool} {pending : List Setting} {options after : Options}
    {text rest : List Char} (hpending : pending.Nodup) :
    readMembers first pending options text = .ok (after, rest) ↔
      ∃ given, given.Nodup ∧ given ⊆ pending ∧ options.ChangesOnly given after ∧
        MembersAt first text (given.map after.member) rest := by
  constructor
  · intro h
    fun_induction readMembers first pending options text with
    | case2 first pending options text left hnext =>
        cases h
        exact ⟨[], List.nodup_nil, List.nil_subset _, changesOnly_nil_iff.2 rfl,
          .close (nextKey_eq_ok_false_iff.1 hnext)⟩
    | case7 first pending options text afterQuote hnext key afterKey hkey setting hsetting hmem
        afterColon hcolon middle afterValue hread ih =>
        obtain ⟨given, hdistinct, hsubset, hchanges, hmembers⟩ := ih (hpending.erase _) h
        have hnew : setting ∉ given := fun hagain => hpending.not_mem_erase (hsubset hagain)
        have hvalue : after.value setting = middle.value setting := hchanges setting hnew
        obtain ⟨hmiddle, start, hspace, hstart⟩ := Setting.read_eq_ok_iff.1 hread
        obtain rfl := Setting.ofKey?_eq_some_iff.1 hsetting
        refine ⟨setting :: given, List.nodup_cons.2 ⟨hnew, hdistinct⟩,
          List.cons_subset.2 ⟨hmem, List.Subset.trans hsubset List.erase_subset⟩,
          changesOnly_cons_iff.2 ⟨middle, hmiddle, hvalue.symm, hchanges⟩, ?_⟩
        exact .member (nextKey_eq_ok_true_iff.1 hnext) (readString_eq_ok_iff.1 hkey)
          (readColon_eq_ok_iff.1 hcolon) hspace (hvalue ▸ hstart) hmembers
    | _ => cases h
  · rintro ⟨given, hdistinct, hsubset, hchanges, hmembers⟩
    induction given generalizing first pending options text with
    | nil =>
        obtain rfl := changesOnly_nil_iff.1 hchanges
        cases hmembers with
        | close hspace =>
            rw [readMembers, nextKey_eq_ok_false_iff.2 hspace]
    | cons setting given ih =>
        obtain ⟨hnew, hdistinct⟩ := List.nodup_cons.1 hdistinct
        obtain ⟨hmem, hsubset⟩ := List.cons_subset.1 hsubset
        obtain ⟨middle, hmiddle, hvalue, hchanges⟩ := changesOnly_cons_iff.1 hchanges
        cases hmembers with
        | member hdue hkey hcolon hspace hstart hmembers =>
            have hread := Setting.read_eq_ok_iff.2 ⟨hmiddle, _, hspace, hvalue ▸ hstart⟩
            rw [readMembers, nextKey_eq_ok_true_iff.2 hdue]
            simp only [readString_eq_ok_iff.2 hkey, Setting.ofKey?_eq_some_iff.2 rfl, if_pos hmem,
              readColon_eq_ok_iff.2 hcolon, hread]
            refine ih (hpending.erase _) hdistinct (fun other hother => ?_) hchanges hmembers
            have hne : other ≠ setting := by
              rintro rfl
              exact hnew hother
            exact (List.mem_erase_of_ne hne).2 (hsubset hother)

/-! ## Lists -/

/-- The end of a list is read where its bracket stands after spaces. -/
theorem readListEnd_eq_ok_iff {text rest : List Char} :
    readListEnd text = .ok rest ↔ Spaced text (']' :: rest) := by
  rw [← skipSpace_eq_cons_iff rfl]
  constructor
  · intro h
    unfold readListEnd at h
    split at h
    · cases h
    · next tail hskip =>
      cases h
      exact hskip
    · split at h <;> cases h
    · cases h
  · intro h
    rw [readListEnd, h]
    rfl

/-- The items of a list and its end are read where each item is the value of its setting. -/
theorem readItems_eq_ok_iff {first : Bool} {settings : List Setting} {options after : Options}
    {text rest : List Char} (hsettings : settings.Nodup) :
    (∃ middle, readItems first options settings text = .ok (after, middle) ∧
      readListEnd middle = .ok rest) ↔
      ∃ given, given <+: settings ∧ options.ChangesOnly given after ∧
        ItemsAt first text (given.map after.value) rest := by
  induction settings generalizing first options text with
  | nil =>
      constructor
      · rintro ⟨middle, hread, hend⟩
        cases hread
        exact ⟨[], List.nil_prefix, changesOnly_nil_iff.2 rfl,
          .close (readListEnd_eq_ok_iff.1 hend)⟩
      · rintro ⟨given, hfirst, hchanges, hitems⟩
        obtain rfl := List.prefix_nil.1 hfirst
        obtain rfl := changesOnly_nil_iff.1 hchanges
        cases hitems with
        | close hspace => exact ⟨text, rfl, readListEnd_eq_ok_iff.2 hspace⟩
  | cons setting settings ih =>
      obtain ⟨hnew, hdistinct⟩ := List.nodup_cons.1 hsettings
      constructor
      · rintro ⟨middle, hread, hend⟩
        obtain ⟨⟨more, start⟩, hnext, hread⟩ := bind_eq_ok_iff.1 hread
        cases more with
        | false =>
            obtain ⟨tail, rfl, hspace⟩ := nextItem_eq_ok_false_iff.1 hnext
            cases hread
            cases hend
            exact ⟨[], List.nil_prefix, changesOnly_nil_iff.2 rfl, .close hspace⟩
        | true =>
            obtain ⟨⟨next, afterItem⟩, hitem, hread⟩ := bind_eq_ok_iff.1 hread
            obtain ⟨given, hfirst, hchanges, hitems⟩ := (ih hdistinct).1 ⟨middle, hread, hend⟩
            have hlater : setting ∉ given := fun hagain => hnew (hfirst.subset hagain)
            have hvalue : after.value setting = next.value setting := hchanges setting hlater
            obtain ⟨hone, itemStart, hspace, hstart⟩ := Setting.read_eq_ok_iff.1 hitem
            exact ⟨setting :: given, List.cons_prefix_cons.2 ⟨rfl, hfirst⟩,
              changesOnly_cons_iff.2 ⟨next, hone, hvalue.symm, hchanges⟩,
              .item ((due_of_nextItem hnext).trans hspace) (hvalue ▸ hstart) hitems⟩
      · rintro ⟨given, hfirst, hchanges, hitems⟩
        cases given with
        | nil =>
            obtain rfl := changesOnly_nil_iff.1 hchanges
            cases hitems with
            | close hspace =>
                have hnext : nextItem first text = .ok (false, ']' :: rest) :=
                  nextItem_eq_ok_false_iff.2 ⟨rest, rfl, hspace⟩
                exact ⟨']' :: rest, bind_eq_ok_iff.2 ⟨_, hnext, rfl⟩, rfl⟩
        | cons head given =>
            obtain ⟨rfl, hlater⟩ := List.cons_prefix_cons.1 hfirst
            obtain ⟨next, hone, hvalue, hmore⟩ := changesOnly_cons_iff.1 hchanges
            cases hitems with
            | item hdue hitem hitems =>
                have hread := Setting.read_eq_ok_iff.2 ⟨hone, _, spaced_refl _, hvalue ▸ hitem⟩
                obtain ⟨middle, hothers, hend⟩ :=
                  (ih hdistinct).2 ⟨given, hlater, hmore, hitems⟩
                refine ⟨middle, bind_eq_ok_iff.2 ⟨_, hdue.nextItem_eq hitem, ?_⟩, hend⟩
                exact bind_eq_ok_iff.2 ⟨_, hread, hothers⟩

/-! ## The main result -/

/-- Options are read where a value that gives them stands after spaces. -/
theorem readValue_eq_ok_iff {text rest : List Char} {options : Options} :
    readValue text = .ok (options, rest) ↔
      ∃ start value, Spaced text start ∧ ValueAt start value rest ∧ options.GivenBy value := by
  have hall : Setting.all.Nodup := by decide
  constructor
  · intro h
    unfold readValue at h
    split at h
    · next tail hskip =>
      obtain ⟨⟨found, middle⟩, hread, h⟩ := bind_eq_ok_iff.1 h
      obtain ⟨left, hend, h⟩ := bind_eq_ok_iff.1 h
      cases h
      obtain ⟨given, hfirst, hchanges, hitems⟩ :=
        (readItems_eq_ok_iff hall).1 ⟨middle, hread, hend⟩
      exact ⟨_, _, (skipSpace_eq_cons_iff rfl).1 hskip, .list hitems, .list hfirst hchanges⟩
    · next tail hskip =>
      obtain ⟨given, hdistinct, -, hchanges, hmembers⟩ := (readMembers_eq_ok_iff hall).1 h
      exact ⟨_, _, (skipSpace_eq_cons_iff rfl).1 hskip, .object hmembers,
        .object hdistinct hchanges⟩
    · cases h
  · rintro ⟨start, value, hspace, hvalue, hgiven⟩
    cases hgiven with
    | object hdistinct hothers =>
        cases hvalue with
        | object hmembers =>
            rw [readValue, hspace.skipSpace_eq_cons rfl]
            refine (readMembers_eq_ok_iff hall).2 ⟨_, hdistinct, fun setting _ => ?_, hothers,
              hmembers⟩
            cases setting <;> decide
    | list hfirst hothers =>
        cases hvalue with
        | list hitems =>
            obtain ⟨middle, hread, hend⟩ :=
              (readItems_eq_ok_iff hall).2 ⟨_, hfirst, hothers, hitems⟩
            rw [readValue, hspace.skipSpace_eq_cons rfl]
            exact bind_eq_ok_iff.2 ⟨_, hread, bind_eq_ok_iff.2 ⟨_, hend, rfl⟩⟩

/-- Options are read from the text of a value that gives them. -/
theorem ofText_eq_ok_iff {text : String} {options : Options} :
    ofText text = .ok options ↔ ∃ value, TextOf text.toList value ∧ options.GivenBy value := by
  rw [ofText, mapError_eq_ok_iff, readAll, bind_eq_ok_iff]
  constructor
  · rintro ⟨⟨found, rest⟩, hvalue, hend⟩
    dsimp only at hend
    split at hend
    · next hskip =>
      cases hend
      obtain ⟨start, value, hspace, hstart, hgiven⟩ := readValue_eq_ok_iff.1 hvalue
      exact ⟨value, ⟨start, rest, hspace, hstart, skipSpace_eq_nil_iff.1 hskip⟩, hgiven⟩
    · cases hend
  · rintro ⟨value, ⟨start, rest, hspace, hstart, hend⟩, hgiven⟩
    refine ⟨(options, rest), readValue_eq_ok_iff.2 ⟨start, value, hspace, hstart, hgiven⟩, ?_⟩
    simp only [skipSpace_eq_nil_iff.2 hend]

end Options

/-- A text holds options exactly when it is the JSON text of settings: of an object with known and
distinct keys, or of a list of at most three values, where each value is one that its setting can
have. The options that are read are those that the settings give, and every other text is refused
with an error. -/
theorem options_read_exactly_where_given (text : String) :
    ((∃ options, Options.ofText text = .ok options) ↔
      ∃ value, TextOf text.toList value ∧ IsSettings value) ∧
    (∀ options, Options.ofText text = .ok options ↔
      ∃ value, TextOf text.toList value ∧ options.GivenBy value) ∧
    ((∃ error, Options.ofText text = .error error) ↔
      ¬ ∃ value, TextOf text.toList value ∧ IsSettings value) := by
  have haccepted : (∃ options, Options.ofText text = .ok options) ↔
      ∃ value, TextOf text.toList value ∧ IsSettings value := by
    constructor
    · rintro ⟨options, hread⟩
      obtain ⟨value, htext, hgiven⟩ := Options.ofText_eq_ok_iff.1 hread
      exact ⟨value, htext, hgiven.isSettings⟩
    · rintro ⟨value, htext, hsettings⟩
      obtain ⟨options, hgiven⟩ := hsettings.exists_givenBy
      exact ⟨options, Options.ofText_eq_ok_iff.2 ⟨value, htext, hgiven⟩⟩
  refine ⟨haccepted, fun options => Options.ofText_eq_ok_iff, ?_⟩
  rw [← haccepted]
  cases Options.ofText text with
  | error error => simp
  | ok options => simp

/-- Keys can be escaped and stand in any order, and what is not given has its default. -/
example :
    Options.ofText " \x7b\"\\u0062anner\" : [ ],\n\"serializers\":false\x7d" =
      .ok { Options.default with serializers := false, banner := [] } := by
  decide +kernel

end SchemaCompiler
