import BookRules.Proofs.Json.Derivations
import BookRules.Proofs.Request.OptionShapes
import BookRules.Proofs.Request.Placeholders

/-!
# What a keyword can change

A search address may end with options, which are looked for only after the keyword has been
put in.  Still the options that are found are those that stand in the address, and the keyword
changes nothing but the texts that have a placeholder: an encoded keyword holds no comma and no
brace that an option object could begin with, and no quote or backslash that could end a
string of the object.
-/

namespace BookRules.Request

open Json (Form)
open Text (Slotted fill)

/-! ## Templates -/

/-- The options of a search address as they are written: an object that can be read, whose
placeholders stand in the body and in the texts of the headers. -/
structure WrittenOptions where
  text : Slotted Placeholder
  opens : ∃ inner, text = .letter '\x7b' :: inner
  valid : ∃ plain, Options.parse? (fill Placeholder.text text) = some plain
  slots : ∀ members, SpellsOptions text members → SlotsInTexts members

def withWritten (address : Slotted Placeholder) : Option WrittenOptions → Slotted Placeholder
  | none => address
  | some options => address ++ .letter ',' :: options.text

/-- A search address: two braces begin a placeholder wherever they stand, and in front of the
options a brace behind a comma does. -/
structure SearchTemplate where
  address : Slotted Placeholder
  options : Option WrittenOptions
  braces : BracesBeginPlaceholders (withWritten address options)
  commas : ∀ before after, fill Placeholder.text address = before ++ ',' :: '\x7b' :: after →
    ∃ front p back, address = front ++ .slot p :: back ∧
      fill Placeholder.text front = before ++ [',']

def SearchTemplate.text (template : SearchTemplate) : Slotted Placeholder :=
  withWritten template.address template.options

/-! ## The options -/

theorem braced_text : Json.Braced Placeholder.text where
  opens p := ⟨_, rfl⟩
  unquoted p := by
    have hblank : ∀ c : Char, Text.isBlank c = false → ∀ cs : List Char,
        (∀ d ∈ cs, Text.isBlank d = true) → c ∉ cs := by
      intro c hc cs hcs hmem
      simp [hcs c hmem] at hc
    have hname : '"' ∉ p.name ∧ '\\' ∉ p.name := by
      rcases p.name_eq with hname | hname <;> rw [hname] <;> cases p.wanted <;> decide
    have hquote := hblank '"' (by decide)
    have hslash := hblank '\\' (by decide)
    simp [Placeholder.text, hname, hquote _ p.blank_before, hquote _ p.blank_after,
      hslash _ p.blank_before, hslash _ p.blank_after]

theorem not_isFormSign_control : ∀ n < 0x20, isFormSign (Char.ofNat n) = false := by
  decide

theorem isBare_of_isFormSign (h : isFormSign c = true) : Json.isBare c = true := by
  have hcontrol : ¬ c.toNat < 0x20 := by
    intro hlt
    have hnot := not_isFormSign_control c.toNat hlt
    rw [Char.ofNat_toNat, h] at hnot
    cases hnot
  have hquote : c ≠ '"' := by
    rintro rfl
    revert h
    decide
  have hslash : c ≠ '\\' := by
    rintro rfl
    revert h
    decide
  simp [Json.isBare, hcontrol, hquote, hslash]

theorem fillsStrings_value (keyword : String) (page : Nat) :
    Json.FillsStrings (Placeholder.value keyword page) :=
  fun _ _ hc => isBare_of_isFormSign (isFormSign_of_mem_value hc)

/-- The options that are read have the shape of those that are written. -/
theorem WrittenOptions.exists_shape (options : WrittenOptions) :
    ∃ shape : OptionShape Placeholder,
      Options.parse? (fill Placeholder.text options.text) =
        some (shape.fill Placeholder.text) ∧
      ∀ keyword page, Options.parse? (fill (Placeholder.value keyword page) options.text) =
        some (shape.fill (Placeholder.value keyword page)) := by
  obtain ⟨plain, hplain⟩ := options.valid
  obtain ⟨members, hspells, hread⟩ := exists_spellsOptions braced_text hplain
  have hslots := options.slots members hspells
  obtain ⟨shape, hshape⟩ := Request.exists_shape hslots hread
  refine ⟨shape, ?_, fun keyword page => ?_⟩
  · rw [hplain, ← hread, hshape]
  · rw [hspells.parse?_eq (fillsStrings_value keyword page) hslots.names, hshape]

/-! ## The address -/

variable {keyword : String} {page : Nat}

/-- No option object can begin in a filled address. -/
theorem SearchTemplate.noOptions (template : SearchTemplate) (hkeyword : keyword ≠ "")
    (page : Nat) : NoOptions (fill (Placeholder.value keyword page) template.address) := by
  have hsign : ∀ c, isFormSign c = false → ∀ p, c ∉ Placeholder.value keyword page p := by
    intro c hc p hmem
    simp [isFormSign_of_mem_value hmem] at hc
  rintro ⟨before, after, heq⟩
  have hfilled : fill (Placeholder.value keyword page) template.address =
      before ++ ',' :: '\x7b' :: after := by
    simpa using heq.symm
  obtain ⟨front, back, haddress, -, -⟩ := Text.exists_letters_of_fill
    (value_ne_nil hkeyword page) (hsign ',' (by decide)) (hsign '\x7b' (by decide)) hfilled
  obtain ⟨front', p, back', hslot, hfront⟩ := template.commas (fill Placeholder.text front)
    (fill Placeholder.text back) (by rw [haddress]; simp)
  -- the placeholder would begin where a brace is written by itself
  have hplace : (front ++ [.letter ',']) ++ .letter '\x7b' :: back = front' ++ .slot p :: back' := by
    rw [← hslot, haddress]
    simp
  obtain rfl := Text.eq_of_append_eq_append text_ne_nil hplace (by rw [hfront]; simp)
  simp at hplace

/-! ## Search requests -/

/-- The request for a target and the options that came with it. -/
def requestTo (source : Source) (target : List Char) (options : Option Options) :
    Except Fault Request :=
  match Url.absolute source.url (String.ofList target) with
  | .ok url => .ok (withOptions source url options)
  | .error fault => .error (.url fault)

/-- The target of a search: the address with its placeholders filled. -/
def SearchTemplate.target (template : SearchTemplate) (keyword : String) (page : Nat) :
    List Char :=
  Text.trim (fill (Placeholder.value keyword page) template.address)

/-- The options of a search: those of the shape, with their placeholders filled. -/
def optionsFor (shape : Option (OptionShape Placeholder)) (keyword : String) (page : Nat) :
    Option Options :=
  shape.map (OptionShape.fill (Placeholder.value keyword page))

/-- Searches with a template are requests of one shape. -/
structure HasShape (template : SearchTemplate) (shape : Option (OptionShape Placeholder)) :
    Prop where
  /-- The shape is that of the options as they are written. -/
  written : (template.options.map fun options =>
    Options.parse? (fill Placeholder.text options.text)) =
      shape.map fun shape => some (shape.fill Placeholder.text)
  /-- The target and the options of the template are seen, and no others. -/
  sees : ∀ (source : Source) (keyword : String) (page : Nat), keyword ≠ "" →
    splitOptions (filledTemplate source keyword page (fill Placeholder.text template.text)) =
      (template.target keyword page, optionsFor shape keyword page)
  requests : ∀ (source : Source) (keyword : String) (page : Nat), keyword ≠ "" →
    (Source.rule source.searchUrl).toList = fill Placeholder.text template.text →
    ofSearch source keyword page =
      if template.text.isEmpty then .error (.source (.noSearch source.displayName))
      else requestTo source (template.target keyword page) (optionsFor shape keyword page)
  /-- The method and the names of the headers are the same for all searches. -/
  same : ∀ (source : Source) (url url' keyword keyword' : String) (page page' : Nat),
    (withOptions source url (optionsFor shape keyword page)).method =
      (withOptions source url' (optionsFor shape keyword' page')).method ∧
    (withOptions source url (optionsFor shape keyword page)).headers.map Prod.fst =
      (withOptions source url' (optionsFor shape keyword' page')).headers.map Prod.fst

theorem ofTarget_eq (source : Source) (text : List Char) :
    ofTarget source text = requestTo source (splitOptions text).1 (splitOptions text).2 := rfl

theorem withOptions_same (source : Source) (url url' : String) (page page' : Nat)
    (shape : Option (OptionShape Placeholder)) (keyword keyword' : String) :
    (withOptions source url (optionsFor shape keyword page)).method =
      (withOptions source url' (optionsFor shape keyword' page')).method ∧
    (withOptions source url (optionsFor shape keyword page)).headers.map Prod.fst =
      (withOptions source url' (optionsFor shape keyword' page')).headers.map Prod.fst := by
  cases shape with
  | none => exact ⟨rfl, rfl⟩
  | some shape => exact ⟨rfl, Bindings.map_fst_setAll (shape.map_fst_headers _ _) rfl⟩

theorem SearchTemplate.exists_sees (template : SearchTemplate) :
    ∃ shape : Option (OptionShape Placeholder),
      (template.options.map fun options =>
        Options.parse? (fill Placeholder.text options.text)) =
          (shape.map fun shape => some (shape.fill Placeholder.text)) ∧
      ∀ (keyword : String) (page : Nat), keyword ≠ "" →
        splitOptions (fill (Placeholder.value keyword page) template.text) =
          (template.target keyword page, optionsFor shape keyword page) := by
  cases hoptions : template.options with
  | none =>
      refine ⟨none, rfl, fun keyword page hkeyword => ?_⟩
      rw [SearchTemplate.text, hoptions]
      exact splitOptions_plain (template.noOptions hkeyword page)
  | some options =>
      obtain ⟨shape, hwritten, hfilled⟩ := options.exists_shape
      refine ⟨some shape, congrArg some hwritten, fun keyword page hkeyword => ?_⟩
      obtain ⟨inner, hinner⟩ := options.opens
      have hread := hfilled keyword page
      rw [hinner, Text.fill_letter] at hread
      rw [SearchTemplate.text, hoptions, withWritten, hinner, Text.fill_append, Text.fill_letter,
        Text.fill_letter]
      exact splitOptions_options (template.noOptions hkeyword page) hread

/-- A keyword cannot change the shape of a search request. -/
theorem searchTemplate_hasShape (template : SearchTemplate) :
    ∃ shape, HasShape template shape := by
  obtain ⟨shape, hwritten, hsees⟩ := template.exists_sees
  have hsees' : ∀ (source : Source) (keyword : String) (page : Nat), keyword ≠ "" →
      splitOptions (filledTemplate source keyword page (fill Placeholder.text template.text)) =
        (template.target keyword page, optionsFor shape keyword page) := by
    intro source keyword page hkeyword
    have hbraces : BracesBeginPlaceholders template.text := template.braces
    rw [filledTemplate_fill source hkeyword page hbraces]
    exact hsees keyword page hkeyword
  refine ⟨shape, hwritten, hsees', fun source keyword page hkeyword hsource => ?_,
    fun source url url' keyword keyword' page page' =>
      withOptions_same source url url' page page' shape keyword keyword'⟩
  have hempty : (Source.rule source.searchUrl).isEmpty = template.text.isEmpty := by
    rw [Bool.eq_iff_iff, String.isEmpty_iff, ← String.toList_eq_nil_iff, hsource,
      List.isEmpty_iff]
    exact ⟨Text.eq_nil_of_fill_eq_nil text_ne_nil, fun h => by rw [h, Text.fill_nil]⟩
  unfold ofSearch
  dsimp only
  rw [hempty, hsource, ofTarget_eq, hsees' source keyword page hkeyword]

/-! ## A search by post -/

def shortPlaceholder (wanted : Wanted) : Placeholder where
  wanted := wanted
  before := []
  name := wanted.short
  after := []
  blank_before := by simp
  name_eq := Or.inr rfl
  blank_after := by simp

/-- An object with the keyword in the body and the page in a header. -/
def postText : Slotted Placeholder :=
  Text.letters "\x7b\"method\":\"POST\",\"body\":\"".toList ++
    .slot (shortPlaceholder .keyword) ::
      (Text.letters "\",\"headers\":\x7b\"X-Page\":\"".toList ++
        .slot (shortPlaceholder .page) :: Text.letters "\"\x7d\x7d".toList)

def postMembers : List (Slotted Placeholder × Form Placeholder) :=
  [(Text.letters "method".toList, .string (Text.letters "POST".toList)),
    (Text.letters "body".toList, .string [.slot (shortPlaceholder .keyword)]),
    (Text.letters "headers".toList, .object
      [(Text.letters "X-Page".toList, .string [.slot (shortPlaceholder .page)])])]

theorem postText_spells : Json.SpellsDocument postText (.object postMembers) := by
  refine ⟨postText, [], by simp, Json.blanks_nil, ?_⟩
  have hname : ∀ name : String, Json.SpellsText
      (Text.letters (name.toList.flatMap Json.escapeChar) : Slotted Placeholder)
      (Text.letters name.toList) := fun name => Json.spellsText_escaped name.toList
  have hslot : ∀ p : Placeholder, Json.SpellsText [.slot p] [.slot p] := fun p => .slot .nil
  have hmember : ∀ {depth : Nat} {t : Slotted Placeholder} {form : Form Placeholder}
      (name : String), Json.Spells depth t (.value form) → Json.Spells depth
        (.letter '"' :: (Text.letters (name.toList.flatMap Json.escapeChar) ++
          .letter '"' :: .letter ':' :: t)) (.member (Text.letters name.toList) form) :=
    fun name hform => .member Json.blanks_nil (hname name) Json.blanks_nil hform
  exact .object (.members (hmember "method" (.string (hname "POST"))) Json.blanks_nil
    (.members (hmember "body" (.string (hslot _))) Json.blanks_nil
      (.lastMember (hmember "headers" (.object
        (.lastMember (hmember "X-Page" (.string (hslot _))) Json.blanks_nil)))
        Json.blanks_nil)))

theorem postMembers_slots : SlotsInTexts (postMembers.map asRead) where
  names member hmember := by
    simp only [postMembers, List.map_cons, List.map_nil, List.mem_cons, List.not_mem_nil,
      or_false] at hmember
    rcases hmember with rfl | rfl | rfl <;> exact Text.slotFree_letters _
  method text hmem := by
    have hmember := mem_of_mem_map_asRead hmem
    simp only [postMembers, List.mem_cons, Prod.mk.injEq, List.not_mem_nil, or_false] at hmember
    rcases hmember with ⟨-, h⟩ | ⟨h, -⟩ | ⟨h, -⟩
    · obtain rfl := Form.string.inj h
      exact Text.slotFree_letters _
    · simp [Text.letters] at h
    · simp [Text.letters] at h
  headers headers hmem := by
    have hmember := mem_of_mem_map_asRead hmem
    simp only [postMembers, List.mem_cons, Prod.mk.injEq, reduceCtorEq, and_false,
      List.not_mem_nil, or_false, false_or, true_and] at hmember
    obtain rfl := Form.object.inj hmember
    intro header hheader
    obtain rfl := List.mem_singleton.1 hheader
    exact ⟨Text.slotFree_letters _, .text _⟩

/-- The options as they are read where the placeholders are left as they are. -/
def postOptions : Options where
  method := "POST"
  body := some "\x7b\x7bkey\x7d\x7d"
  headers := [("X-Page", "\x7b\x7bpage\x7d\x7d")]

theorem parse?_postText :
    Options.parse? (fill Placeholder.text postText) = some postOptions := by
  decide +kernel

def postTemplate : SearchTemplate where
  address := Text.letters "/s?n=".toList ++ [.slot (shortPlaceholder .page)]
  options := some
    { text := postText
      opens := ⟨_, rfl⟩
      valid := ⟨postOptions, parse?_postText⟩
      slots := fun members hspells => by
        obtain rfl := hspells.unique (.of_spellsDocument postText_spells)
        exact postMembers_slots }
  braces := bracesBeginPlaceholders_of_isChain (by decide +kernel)
  commas := by
    intro before after h
    have hmem : ',' ∈ before ++ ',' :: '\x7b' :: after := by simp
    rw [← h] at hmem
    exact absurd hmem (by decide)

theorem searchTemplate_hasShape_post :
    ∃ shape, HasShape postTemplate (some shape) ∧ shape.method = "POST" := by
  obtain ⟨shape, hshape⟩ := searchTemplate_hasShape postTemplate
  have hwritten := hshape.written
  cases shape with
  | none => cases hwritten
  | some shape =>
      have hplain : Options.parse? (fill Placeholder.text postText) =
          some (shape.fill Placeholder.text) := Option.some.inj hwritten
      rw [parse?_postText] at hplain
      exact ⟨shape, hshape, (congrArg Options.method (Option.some.inj hplain)).symm⟩

end BookRules.Request
