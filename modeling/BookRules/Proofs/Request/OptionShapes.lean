import BookRules.Proofs.Bindings
import BookRules.Proofs.Json.Printing
import BookRules.Proofs.Request.OptionObjects

/-!
# The shape of options

Options begin at the first comma with an option object behind it, so an address in which no
such object can begin is passed over.  Options that are written with slots in the body and in
the values of the headers keep their method and the names of their headers, whatever the slots
are filled with.
-/

namespace BookRules.Request

open Json (Form)
open Text (Slotted letters fill SlotFree)

/-! ## Addresses with options -/

section Addresses

/-- A text in which no option object can begin. -/
def NoOptions (cs : List Char) : Prop :=
  ¬ [',', '\x7b'] <:+: cs

variable {c : Char} {before cs rest : List Char}

theorem splitOptionsFrom_cons (h : c = ',' → rest.head? ≠ some '\x7b') :
    splitOptionsFrom before (c :: rest) = splitOptionsFrom (c :: before) rest := by
  have hcut : (c == ',' && rest.head? == some '\x7b') = false := by
    simpa using h
  rw [splitOptionsFrom, hcut]
  rfl

theorem NoOptions.tail (h : NoOptions (c :: cs)) : NoOptions cs :=
  fun hcs => h (hcs.trans (List.suffix_cons c cs).isInfix)

theorem splitOptionsFrom_append (h : NoOptions cs) (hrest : rest.head? ≠ some '\x7b') :
    splitOptionsFrom before (cs ++ rest) = splitOptionsFrom (cs.reverse ++ before) rest := by
  induction cs generalizing before with
  | nil => rfl
  | cons c cs ih =>
      have hcons : c = ',' → (cs ++ rest).head? ≠ some '\x7b' := by
        rintro rfl hhead
        cases cs with
        | nil => exact hrest hhead
        | cons d cs =>
            obtain rfl : d = '\x7b' := by simpa using hhead
            exact h ⟨[], cs, rfl⟩
      rw [List.cons_append, splitOptionsFrom_cons hcons, ih h.tail]
      simp

theorem splitOptions_plain (h : NoOptions cs) : splitOptions cs = (Text.trim cs, none) := by
  have hsplit := @splitOptionsFrom_append [] cs [] h (by simp)
  simpa [splitOptions, splitOptionsFrom] using hsplit

theorem splitOptions_options {options : Options} (h : NoOptions cs)
    (hoptions : Options.parse? ('\x7b' :: rest) = some options) :
    splitOptions (cs ++ ',' :: '\x7b' :: rest) = (Text.trim cs, some options) := by
  rw [splitOptions, splitOptionsFrom_append h (by simp)]
  simp [splitOptionsFrom, hoptions]

end Addresses

/-! ## Slots in options -/

variable {σ : Type} {value write : σ → List Char}

/-- Options with slots in their texts. -/
structure OptionShape (σ : Type) where
  method : String
  body : Option (Slotted σ)
  headers : List (String × Slotted σ)

/-- A name and a text with a value in the place of every slot. -/
def fillPair (value : σ → List Char) (pair : String × Slotted σ) : String × String :=
  (pair.1, String.ofList (fill value pair.2))

def OptionShape.fill (value : σ → List Char) (shape : OptionShape σ) : Options where
  method := shape.method
  body := shape.body.map fun text => String.ofList (Text.fill value text)
  headers := Bindings.ofPairs (shape.headers.map (fillPair value))

/-- A text, or a value without slots. -/
inductive TextForm : Form σ → Prop
  | text (text : Slotted σ) : TextForm (.string text)
  | document (doc : Json) : TextForm (.ofJson doc)

/-- The slots of an option object stand in no name and not in the method, and inside the
headers in the texts only. -/
structure SlotsInTexts (members : List (Slotted σ × Option (Form σ))) : Prop where
  names : ∀ member ∈ members, SlotFree member.1
  method : ∀ text, (letters "method".toList, some (.string text)) ∈ members → SlotFree text
  headers : ∀ headers, (letters "headers".toList, some (.object headers)) ∈ members →
    ∀ header ∈ headers, SlotFree header.1 ∧ TextForm header.2

theorem OptionShape.map_fst_headers (shape : OptionShape σ) (value value' : σ → List Char) :
    (shape.fill value).headers.map Prod.fst = (shape.fill value').headers.map Prod.fst := by
  refine Bindings.map_fst_setAll ?_ rfl
  simp [fillPair, Function.comp_def]

/-! ## Names without slots -/

def named (member : String × Form σ) : Slotted σ × Form σ :=
  (letters member.1.toList, member.2)

theorem mem_optionsIn {members : List (Slotted σ × Option (Form σ))} {name : Slotted σ}
    {form : Form σ} (h : (name, form) ∈ optionsIn members) : (name, some form) ∈ members := by
  obtain ⟨⟨name', form'⟩, hmember, hform⟩ := List.mem_filterMap.1 h
  obtain ⟨form', rfl, heq⟩ := Option.map_eq_some_iff.1 hform
  obtain ⟨rfl, rfl⟩ := Prod.mk.inj heq
  exact hmember

theorem exists_named {members : List (Slotted σ × Form σ)}
    (h : ∀ member ∈ members, SlotFree member.1) :
    ∃ forms : List (String × Form σ), members = forms.map named := by
  induction members with
  | nil => exact ⟨[], rfl⟩
  | cons member rest ih =>
      rw [List.forall_mem_cons] at h
      obtain ⟨forms, rfl⟩ := ih h.2
      obtain ⟨cs, hcs⟩ := h.1.exists_letters
      obtain ⟨name, form⟩ := member
      obtain rfl : name = letters cs := hcs
      exact ⟨(String.ofList cs, form) :: forms, by simp [named]⟩

/-! ## Reading an option object -/

def method? : Option Json → Option String
  | none => some ""
  | some (.string s) => some s
  | _ => none

def body? : Option Json → Option (Option String)
  | none | some .null => some none
  | some (.string s) => some (some s)
  | _ => none

def headers? : Option Json → Option (List (String × Json))
  | none => some []
  | some (.object headers) => some headers
  | _ => none

theorem ofMembers?_eq (members : List (String × Json)) :
    Options.ofMembers? members =
      if Options.names.any fun name => 1 < Options.count name members then none
      else (method? (Json.lookup? "method" members)).bind fun method =>
        (body? (Json.lookup? "body" members)).bind fun body =>
          (headers? (Json.lookup? "headers" members)).map fun headers =>
            { method, body, headers := Source.headersOf headers } := by
  unfold Options.ofMembers?
  split_ifs
  · rfl
  generalize Json.lookup? "method" members = method
  generalize Json.lookup? "body" members = body
  generalize Json.lookup? "headers" members = headers
  rcases method with _ | (_ | _ | _ | _ | _ | _) <;> first
    | rfl
    | rcases body with _ | (_ | _ | _ | _ | _ | _) <;> first
      | rfl
      | rcases headers with _ | (_ | _ | _ | _ | _ | _) <;> rfl

def filledValue (value : σ → List Char) (form : Form σ) : Json :=
  (form.fill value).merged

theorem filledMembers_named (value : σ → List Char) (forms : List (String × Form σ)) :
    filledMembers value (forms.map named) =
      forms.map fun member => (member.1, filledValue value member.2) := by
  rw [filledMembers, Form.fillMembers_eq]
  simp [Form.fillMember, named, filledValue]

theorem lookup?_map {β : Type} (g : β → Json) (name : String) (forms : List (String × β)) :
    Json.lookup? name (forms.map fun member => (member.1, g member.2)) =
      (forms.lookup name).map g := by
  induction forms with
  | nil => rfl
  | cons member rest ih =>
      obtain ⟨k, b⟩ := member
      by_cases hk : k = name
      · simp [Json.lookup?, hk]
      · have hother : (name == k) = false := beq_false_of_ne (Ne.symm hk)
        simp [Json.lookup?, hk, List.lookup_cons, hother, ih]

theorem mem_of_lookup {β : Type} {name : String} {forms : List (String × β)} {b : β}
    (h : forms.lookup name = some b) : (name, b) ∈ forms := by
  obtain ⟨front, back, rfl, -⟩ := List.lookup_eq_some_iff.1 h
  simp

variable {forms : List (String × Form σ)}

theorem method?_shape {method : String}
    (hslots : ∀ text, ("method", .string text) ∈ forms → SlotFree text)
    (h : method? ((forms.lookup "method").map (filledValue write)) = some method)
    (value : σ → List Char) :
    method? ((forms.lookup "method").map (filledValue value)) = some method := by
  cases hform : forms.lookup "method" with
  | none => simpa [hform] using h
  | some form =>
      rw [hform] at h
      cases form with
      | string text =>
          have hfree := hslots text (mem_of_lookup hform)
          rw [Option.map_some, filledValue, Form.fill, hfree.fill_eq value write]
          exact h
      | _ => cases h

theorem body?_shape {body : Option String}
    (h : body? ((forms.lookup "body").map (filledValue write)) = some body) :
    ∃ shape : Option (Slotted σ), ∀ value,
      body? ((forms.lookup "body").map (filledValue value)) =
        some (shape.map fun text => String.ofList (fill value text)) := by
  cases hform : forms.lookup "body" with
  | none => exact ⟨none, fun value => rfl⟩
  | some form =>
      rw [hform] at h
      cases form with
      | null => exact ⟨none, fun value => rfl⟩
      | string text => exact ⟨some text, fun value => rfl⟩
      | _ => cases h

/-! ### Headers -/

/-- A member is set as in an object, whatever its value is. -/
def putFirst {β : Type} (name : String) (b : β) : List (String × β) → List (String × β)
  | [] => [(name, b)]
  | (k, v) :: rest => if k = name then (k, b) :: rest else (k, v) :: putFirst name b rest

theorem setMember_eq (name : String) (doc : Json) (members : List (String × Json)) :
    Json.setMember name doc members = putFirst name doc members := by
  induction members with
  | nil => rfl
  | cons member rest ih =>
      obtain ⟨k, v⟩ := member
      rw [Json.setMember, putFirst, ih]

theorem map_putFirst {β γ : Type} (g : β → γ) (name : String) (b : β)
    (members : List (String × β)) :
    (putFirst name b members).map (Prod.map id g) =
      putFirst name (g b) (members.map (Prod.map id g)) := by
  induction members with
  | nil => rfl
  | cons member rest ih =>
      obtain ⟨k, v⟩ := member
      simp only [putFirst, List.map_cons, Prod.map, id]
      split_ifs
      · rfl
      · rw [List.map_cons, ih]
        rfl

theorem TextForm.exists_headerText {form : Form σ} (h : TextForm form) :
    ∃ text : Slotted σ, ∀ value,
      Source.headerText (filledValue value form) = String.ofList (fill value text) := by
  cases h with
  | text text => exact ⟨text, fun value => rfl⟩
  | document doc =>
      refine ⟨letters (Source.headerText doc.merged).toList, fun value => ?_⟩
      rw [filledValue, Form.fill_ofJson]
      simp

def headerTexts (headers : List (String × Json)) : List (String × String) :=
  headers.map (Prod.map id Source.headerText)

/-- The last text of a header counts, and it is the same text whatever it is filled with. -/
theorem exists_headerTexts {headers : List (Slotted σ × Form σ)}
    (hheaders : ∀ header ∈ headers, SlotFree header.1 ∧ TextForm header.2)
    {done : (σ → List Char) → List (String × Json)} {doneShape : List (String × Slotted σ)}
    (hdone : ∀ value, headerTexts (done value) = doneShape.map (fillPair value)) :
    ∃ shape : List (String × Slotted σ), ∀ value,
      headerTexts (Json.mergedMembers (done value) (Form.fillMembers value headers)) =
        shape.map (fillPair value) := by
  induction headers generalizing done doneShape with
  | nil => exact ⟨doneShape, hdone⟩
  | cons header rest ih =>
      obtain ⟨name, form⟩ := header
      rw [List.forall_mem_cons] at hheaders
      obtain ⟨⟨hname, hform⟩, hrest⟩ := hheaders
      obtain ⟨cs, hcs⟩ := hname.exists_letters
      obtain rfl : name = letters cs := hcs
      obtain ⟨text, htext⟩ := hform.exists_headerText
      have hset : ∀ value, headerTexts
          (Json.setMember (String.ofList cs) (filledValue value form) (done value)) =
            (putFirst (String.ofList cs) text doneShape).map (fillPair value) := by
        intro value
        have hshape := map_putFirst (fun text => String.ofList (fill value text))
          (String.ofList cs) text doneShape
        rw [headerTexts, setMember_eq, map_putFirst, ← headerTexts, hdone, htext]
        exact hshape.symm
      obtain ⟨shape, hshape⟩ := ih hrest hset
      refine ⟨shape, fun value => ?_⟩
      rw [Form.fillMembers, Json.mergedMembers, Text.fill_letters]
      exact hshape value

theorem headersOf_eq (headers : List (String × Json)) :
    Source.headersOf headers = Bindings.ofPairs (headerTexts headers) := rfl

theorem headers?_shape {read : List (String × Json)}
    (hslots : ∀ headers, ("headers", .object headers) ∈ forms →
      ∀ header ∈ headers, SlotFree header.1 ∧ TextForm header.2)
    (h : headers? ((forms.lookup "headers").map (filledValue write)) = some read) :
    ∃ shape : List (String × Slotted σ), ∀ value,
      (headers? ((forms.lookup "headers").map (filledValue value))).map headerTexts =
        some (shape.map (fillPair value)) := by
  cases hform : forms.lookup "headers" with
  | none => exact ⟨[], fun value => rfl⟩
  | some form =>
      rw [hform] at h
      cases form with
      | object headers =>
          obtain ⟨shape, hshape⟩ := @exists_headerTexts σ headers
            (hslots headers (mem_of_lookup hform)) (fun _ => []) [] fun value => rfl
          exact ⟨shape, fun value => congrArg some (hshape value)⟩
      | _ => cases h

/-! ## The shape -/

theorem count_filled (value : σ → List Char) (name : String) (forms : List (String × Form σ)) :
    Options.count name (forms.map fun member => (member.1, filledValue value member.2)) =
      forms.countP fun member => member.1 == name := by
  rw [Options.count, List.countP_map]
  rfl

/-- Options that can be read keep their shape, whatever their slots are filled with. -/
theorem exists_shape {members : List (Slotted σ × Option (Form σ))} (hslots : SlotsInTexts members)
    {plain : Options} (h : Options.ofMembers? (filledMembers write (optionsIn members)) = some plain) :
    ∃ shape : OptionShape σ, ∀ value,
      Options.ofMembers? (filledMembers value (optionsIn members)) = some (shape.fill value) := by
  obtain ⟨forms, hforms⟩ := exists_named fun member hmember =>
    hslots.names _ (mem_optionsIn hmember)
  have hmem : ∀ {name : String} {form : Form σ}, (name, form) ∈ forms →
      (letters name.toList, some form) ∈ members := fun hform =>
    mem_optionsIn (hforms ▸ List.mem_map_of_mem hform)
  rw [hforms, filledMembers_named, ofMembers?_eq] at h
  simp only [lookup?_map, count_filled] at h
  split_ifs at h with htwice
  obtain ⟨method, hmethod, h⟩ := Option.bind_eq_some_iff.1 h
  obtain ⟨body, hbody, h⟩ := Option.bind_eq_some_iff.1 h
  obtain ⟨headers, hheaders, -⟩ := Option.map_eq_some_iff.1 h
  have hmethod' := method?_shape (fun text htext => hslots.method text (hmem htext)) hmethod
  obtain ⟨bodyShape, hbody'⟩ := body?_shape hbody
  obtain ⟨headersShape, hheaders'⟩ :=
    headers?_shape (fun headers hheaders => hslots.headers headers (hmem hheaders)) hheaders
  refine ⟨⟨method, bodyShape, headersShape⟩, fun value => ?_⟩
  obtain ⟨read, hread, htexts⟩ := Option.map_eq_some_iff.1 (hheaders' value)
  rw [hforms, filledMembers_named, ofMembers?_eq]
  simp only [lookup?_map, count_filled]
  rw [if_neg htwice, hmethod' value, hbody' value, hread]
  simp only [Option.bind_some, Option.map_some, headersOf_eq, htexts]
  rfl

end BookRules.Request
