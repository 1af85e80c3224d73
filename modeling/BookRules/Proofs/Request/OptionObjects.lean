import BookRules.Proofs.Json.Passing
import BookRules.Request.Basic

/-!
# Option objects as they are written

An option object is read member by member: the value of an option as any value of a document is,
and the value of another member is passed over.  A text with slots that is read as options
therefore spells an option object, which says of every member its name and of every option its
value.  It spells one only, and the options are the same ones whatever the slots are filled with,
as long as they stand in no name.
-/

namespace BookRules.Request

open Json (Form Spells SpellsText Blanks FillsStrings Braced EndsNumber)
open Text (Sign Slotted letters fill SlotFree)

variable {σ : Type} {value write : σ → List Char}

/-- The name of an option.  A name with slots is none. -/
def IsOptionName (name : Slotted σ) : Prop :=
  ∃ option ∈ Options.names, name = letters option.toList

/-- The value of a member: read for an option, and passed over for any other member. -/
inductive SpellsValue (name : Slotted σ) : Slotted σ → Option (Form σ) → Prop
  | option {t : Slotted σ} {form : Form σ} (hname : IsOptionName name)
      (hform : Spells (Json.maxDepth - 1) t (.value form)) : SpellsValue name t (some form)
  | other {t : Slotted σ} (hname : ¬ IsOptionName name) (hpasses : Json.Passes t) :
      SpellsValue name t none

/-- The name of a member and the colon behind it. -/
inductive SpellsName (name : Slotted σ) : Slotted σ → Prop
  | mk {ws ws' : List Char} {raw : Slotted σ} (hws : Blanks ws) (hname : SpellsText raw name)
      (hws' : Blanks ws') :
      SpellsName name
        (letters ws ++ .letter '"' :: (raw ++ .letter '"' :: (letters ws' ++ [.letter ':'])))

/-- The inside of an option object: its members, with the values of the options. -/
inductive SpellsMembers : Slotted σ → List (Slotted σ × Option (Form σ)) → Prop
  | last {ws : List Char} {front t name : Slotted σ} {form : Option (Form σ)}
      (hname : SpellsName name front) (hvalue : SpellsValue name t form) (hws : Blanks ws) :
      SpellsMembers (front ++ (t ++ letters ws)) [(name, form)]
  | more {ws : List Char} {front t rest name : Slotted σ} {form : Option (Form σ)}
      {members : List (Slotted σ × Option (Form σ))} (hname : SpellsName name front)
      (hvalue : SpellsValue name t form) (hws : Blanks ws)
      (hmembers : SpellsMembers rest members) :
      SpellsMembers (front ++ (t ++ (letters ws ++ .letter ',' :: rest)))
        ((name, form) :: members)

/-- An option object, and nothing but white space around it. -/
inductive SpellsOptions : Slotted σ → List (Slotted σ × Option (Form σ)) → Prop
  | empty {ws ws' ws'' : List Char} (hws : Blanks ws) (hws' : Blanks ws') (hws'' : Blanks ws'') :
      SpellsOptions
        (letters ws ++ .letter '\x7b' :: (letters ws' ++ .letter '\x7d' :: letters ws'')) []
  | members {ws ws' : List Char} {t : Slotted σ} {members : List (Slotted σ × Option (Form σ))}
      (hws : Blanks ws) (hmembers : SpellsMembers t members) (hws' : Blanks ws') :
      SpellsOptions (letters ws ++ .letter '\x7b' :: (t ++ .letter '\x7d' :: letters ws')) members

/-- The options of an object. -/
def optionsIn (members : List (Slotted σ × Option (Form σ))) : List (Slotted σ × Form σ) :=
  members.filterMap fun (name, form) => form.map fun form => (name, form)

/-- The members of an option object, filled and merged as they are read. -/
def filledMembers (value : σ → List Char) (members : List (Slotted σ × Form σ)) :
    List (String × Json) :=
  (Form.fillMembers value members).map fun (name, doc) => (name, doc.merged)

/-! ## Reading -/

variable {t name front : Slotted σ} {form : Option (Form σ)} {more : List Char}
variable {members : List (Slotted σ × Option (Form σ))}

theorem isOptionName_iff (hfree : SlotFree name) (value : σ → List Char) :
    IsOptionName name ↔ String.ofList (fill value name) ∈ Options.names := by
  obtain ⟨cs, rfl⟩ := hfree.exists_letters
  rw [Text.fill_letters]
  constructor
  · rintro ⟨option, hoption, heq⟩
    have hcs : cs = option.toList := by
      simpa using congrArg (fill value) heq
    rw [hcs, String.ofList_toList]
    exact hoption
  · exact fun hoption => ⟨_, hoption, by rw [String.toList_ofList]⟩

theorem SpellsName.name?_eq (hvalue : FillsStrings value) (h : SpellsName name front)
    (more : List Char) :
    Options.name? (fill value front ++ more) = some (String.ofList (fill value name), more) := by
  obtain ⟨hws, hname, hws'⟩ := h
  simp only [Text.fill_append, Text.fill_letters, Text.fill_letter, Text.fill_nil,
    List.append_assoc, List.cons_append, List.nil_append]
  rw [Options.name?, Json.skipSpace_blanks hws (by decide)]
  simp only [hname.stringTail?_eq hvalue, Json.skipSpace_blanks hws' (by decide : Json.isSpace ':' = false)]
  simp

theorem SpellsValue.value?_eq (hvalue : FillsStrings value) (hfree : SlotFree name)
    (h : SpellsValue name t form) (hmore : EndsNumber more) :
    Options.value? (String.ofList (fill value name)) (fill value t ++ more) =
      some (form.map (Form.fill value), more) := by
  cases h with
  | option hname hform =>
      rw [Options.value?, if_pos ((isOptionName_iff hfree value).1 hname),
        hform.isRead hvalue _ _ (by simp; omega) hmore]
      rfl
  | other hname hpasses =>
      rw [Options.value?, if_neg (mt (isOptionName_iff hfree value).2 hname),
        hpasses.pass?_eq hvalue hmore]
      rfl

/-- Read what stands behind a member. -/
def afterMember? (fuel : Nat) (done : List (String × Json)) :
    List Char → Option (List (String × Json) × List Char)
  | ',' :: rest => Options.members? fuel done rest
  | '\x7d' :: rest => some (done.reverse, rest)
  | _ => none

theorem members?_member {cs after behind : List Char} {s : String} {doc : Option Json}
    (hname : Options.name? cs = some (s, after))
    (hvalue : Options.value? s after = some (doc, behind)) (fuel : Nat)
    (done : List (String × Json)) :
    Options.members? (fuel + 1) done cs =
      afterMember? fuel ((doc.map fun doc => (s, doc)).toList ++ done) (Json.skipSpace behind) := by
  simp only [Options.members?, hname, hvalue]
  rfl

theorem fillMembers_optionsIn_cons (value : σ → List Char) (name : Slotted σ)
    (form : Option (Form σ)) (members : List (Slotted σ × Option (Form σ))) :
    Form.fillMembers value (optionsIn ((name, form) :: members)) =
      (form.map fun form => (String.ofList (fill value name), form.fill value)).toList ++
        Form.fillMembers value (optionsIn members) := by
  cases form <;> rfl

theorem SpellsMembers.members?_eq (hvalue : FillsStrings value)
    (hfree : ∀ member ∈ members, SlotFree member.1) (h : SpellsMembers t members) {fuel : Nat}
    (hfuel : members.length ≤ fuel) (done : List (String × Json)) (rest : List Char) :
    Options.members? fuel done (fill value t ++ '\x7d' :: rest) =
      some (done.reverse ++ Form.fillMembers value (optionsIn members), rest) := by
  induction h generalizing fuel done with
  | @last ws front t name form hname hform hws =>
      obtain ⟨fuel, rfl⟩ : ∃ n, fuel = n + 1 := ⟨fuel - 1, by simp at hfuel; omega⟩
      obtain ⟨hclose, hends⟩ := @Json.sign_blanks ws '\x7d' hws (by decide) rest
      have hread := members?_member (hname.name?_eq hvalue _)
        (hform.value?_eq hvalue (hfree _ List.mem_cons_self) hends) fuel done
      simp only [Text.fill_append, Text.fill_letters, List.append_assoc]
      rw [hread, hclose, fillMembers_optionsIn_cons]
      cases form <;> simp [afterMember?, optionsIn, Form.fillMembers]
  | @more ws front t inner name form members hname hform hws hmembers ih =>
      obtain ⟨fuel, rfl⟩ : ∃ n, fuel = n + 1 := ⟨fuel - 1, by simp at hfuel; omega⟩
      rw [List.forall_mem_cons] at hfree
      obtain ⟨hcomma, hends⟩ :=
        @Json.sign_blanks ws ',' hws (by decide) (fill value inner ++ '\x7d' :: rest)
      have hread := members?_member (hname.name?_eq hvalue _)
        (hform.value?_eq hvalue hfree.1 hends) fuel done
      simp only [Text.fill_append, Text.fill_letters, Text.fill_letter, List.append_assoc,
        List.cons_append]
      rw [hread, hcomma, afterMember?, ih hfree.2 (by simpa using hfuel), fillMembers_optionsIn_cons]
      cases form <;> simp

theorem SpellsName.length_pos (h : SpellsName name front) (value : σ → List Char) :
    0 < (fill value front).length := by
  obtain ⟨hws, hname, hws'⟩ := h
  simp only [Text.fill_append, Text.fill_letter, List.length_append, List.length_cons]
  omega

theorem SpellsMembers.length_le (h : SpellsMembers t members) (value : σ → List Char) :
    members.length ≤ (fill value t).length := by
  induction h with
  | last hname _ _ =>
      have hpos := hname.length_pos value
      simp only [Text.fill_append, List.length_append, List.length_singleton]
      omega
  | more hname _ _ _ ih =>
      simp only [Text.fill_append, Text.fill_letter, List.length_append, List.length_cons]
      omega

variable {cs inner rest : List Char}

theorem name?_close (h : Json.skipSpace cs = '\x7d' :: rest) : Options.name? cs = none := by
  simp [Options.name?, h]

theorem object?_empty (h : Json.skipSpace cs = '\x7b' :: inner)
    (hclose : Json.skipSpace inner = '\x7d' :: rest) : Options.object? cs = some ([], rest) := by
  rw [Options.object?, h]
  simp only [hclose]

theorem object?_members (h : Json.skipSpace cs = '\x7b' :: inner)
    {answer : List (String × Json) × List Char}
    (hmembers : Options.members? inner.length [] inner = some answer) :
    Options.object? cs = some answer := by
  simp only [Options.object?, h]
  split
  · next hclose =>
      cases inner with
      | nil => cases hclose
      | cons c inner => simp [Options.members?, name?_close hclose] at hmembers
  · exact hmembers

theorem parse?_of_object? {docs : List (String × Json)} (h : Options.object? cs = some (docs, rest))
    (hrest : Blanks rest) : Options.parse? cs =
      Options.ofMembers? (docs.map fun (name, doc) => (name, doc.merged)) := by
  have hspace : Json.skipSpace rest = [] := List.dropWhile_eq_nil_iff.2 hrest
  rw [Options.parse?, h]
  simp [hspace]

/-- The options of an object are read, whatever stands in its slots. -/
theorem SpellsOptions.parse?_eq (hvalue : FillsStrings value)
    (hfree : ∀ member ∈ members, SlotFree member.1) (h : SpellsOptions t members) :
    Options.parse? (fill value t) =
      Options.ofMembers? (filledMembers value (optionsIn members)) := by
  cases h with
  | @empty ws ws' ws'' hws hws' hws'' =>
      simp only [Text.fill_append, Text.fill_letters, Text.fill_letter]
      exact parse?_of_object? (object?_empty (Json.skipSpace_blanks hws (by decide) _)
        (Json.skipSpace_blanks hws' (by decide) _)) hws''
  | @members ws ws' t members hws hmembers hws' =>
      simp only [Text.fill_append, Text.fill_letters, Text.fill_letter]
      have hlength := hmembers.length_le value
      have hread := hmembers.members?_eq hvalue hfree
        (show members.length ≤ (fill value t ++ '\x7d' :: ws').length by simp; omega) [] ws'
      exact parse?_of_object? (object?_members (Json.skipSpace_blanks hws (by decide) _) hread) hws'

/-- The value of another member need not be one that can be read. -/
example : Options.parse? "\x7b\"x\":[1e999,\"\\ud800\"],\"method\":\"POST\"\x7d".toList =
    some { method := "POST" } := by
  decide +kernel

/-! ## What is read is spelled -/

theorem exists_spellsName (hwrite : Braced write) {s : String}
    (h : Options.name? (fill write t) = some (s, rest)) :
    ∃ front name back, t = front ++ back ∧ fill write back = rest ∧ SpellsName name front ∧
      s = String.ofList (fill write name) := by
  unfold Options.name? at h
  split at h
  next inner hquote =>
    split at h
    next name colon hname =>
      split at h
      next after hcolon =>
        obtain ⟨rfl, rfl⟩ := Prod.mk.inj (Option.some.inj h)
        obtain ⟨ws, t, rfl, hws, rfl⟩ := Json.exists_blanks_letter hwrite (by decide) hquote
        obtain ⟨raw, text, t, rfl, rfl, hspells, rfl⟩ := Json.exists_spellsText hwrite hname
        obtain ⟨ws', t, rfl, hws', rfl⟩ := Json.exists_blanks_letter hwrite (by decide) hcolon
        exact ⟨_, text, t, by simp, rfl, .mk hws hspells hws', by simp⟩
      next => cases h
    next => cases h
  next => cases h

theorem brace_not_mem_names : ∀ option ∈ Options.names, '\x7b' ∉ option.toList := by
  decide

theorem isOptionName_of_mem (hwrite : Braced write)
    (h : String.ofList (fill write name) ∈ Options.names) : IsOptionName name := by
  have hbrace := brace_not_mem_names _ h
  rw [String.toList_ofList] at hbrace
  obtain ⟨back, hname, hback⟩ := Text.exists_letters_append hwrite.beginsWith hbrace
    (List.append_nil (fill write name)).symm
  obtain rfl := Text.eq_nil_of_fill_eq_nil hwrite.beginsWith.nonemptyFill hback
  refine ⟨_, h, ?_⟩
  rw [String.toList_ofList]
  simpa using hname

theorem exists_spellsValue (hwrite : Braced write) {doc : Option Json}
    (h : Options.value? (String.ofList (fill write name)) (fill write t) = some (doc, rest)) :
    ∃ front form back, t = front ++ back ∧ fill write back = rest ∧
      SpellsValue name front form ∧ doc = form.map (Form.fill write) := by
  unfold Options.value? at h
  split_ifs at h with hname
  · obtain ⟨⟨value, after⟩, hvalue, heq⟩ := Option.map_eq_some_iff.1 h
    obtain ⟨rfl, rfl⟩ := Prod.mk.inj heq
    obtain ⟨front, form, back, rfl, hback, hform, rfl⟩ :=
      (Json.allSpelled hwrite _).1 _ _ _ _ hvalue
    exact ⟨front, some form, back, rfl, hback, .option (isOptionName_of_mem hwrite hname) hform, rfl⟩
  · obtain ⟨after, hpass, heq⟩ := Option.map_eq_some_iff.1 h
    obtain ⟨rfl, rfl⟩ := Prod.mk.inj heq
    obtain ⟨front, back, rfl, hback, hpasses⟩ := Json.exists_passes hwrite hpass
    refine ⟨front, none, back, rfl, hback, .other ?_ hpasses, rfl⟩
    rintro ⟨option, hoption, rfl⟩
    exact hname (by simpa using hoption)

theorem exists_member {fuel : Nat} {done : List (String × Json)}
    {answer : List (String × Json) × List Char}
    (h : Options.members? (fuel + 1) done cs = some answer) :
    ∃ s after doc behind, Options.name? cs = some (s, after) ∧
      Options.value? s after = some (doc, behind) ∧
      afterMember? fuel ((doc.map fun doc => (s, doc)).toList ++ done) (Json.skipSpace behind) =
        some answer := by
  rw [Options.members?] at h
  split at h
  · cases h
  next s after hname =>
    split at h
    · cases h
    next doc behind hvalue => exact ⟨s, after, doc, behind, hname, hvalue, h⟩

theorem afterMember?_cases {fuel : Nat} {done docs : List (String × Json)}
    (h : afterMember? fuel done cs = some (docs, rest)) :
    (∃ inner, cs = ',' :: inner ∧ Options.members? fuel done inner = some (docs, rest)) ∨
      cs = '\x7d' :: rest ∧ docs = done.reverse := by
  unfold afterMember? at h
  split at h
  · exact Or.inl ⟨_, rfl, h⟩
  · obtain ⟨rfl, rfl⟩ := Prod.mk.inj (Option.some.inj h)
    exact Or.inr ⟨rfl, rfl⟩
  · cases h

theorem exists_spellsMembers (hwrite : Braced write) {fuel : Nat} {done docs : List (String × Json)}
    (h : Options.members? fuel done (fill write t) = some (docs, rest)) :
    ∃ front members back, t = front ++ .letter '\x7d' :: back ∧ fill write back = rest ∧
      SpellsMembers front members ∧ docs = done.reverse ++ Form.fillMembers write (optionsIn members) := by
  induction fuel generalizing t done with
  | zero => cases h
  | succ fuel ih =>
      obtain ⟨s, after, doc, behind, hread, hvalue, hafter⟩ := exists_member h
      obtain ⟨front, name, t, rfl, rfl, hname, rfl⟩ := exists_spellsName hwrite hread
      obtain ⟨inner, form, t, rfl, rfl, hform, rfl⟩ := exists_spellsValue hwrite hvalue
      rcases afterMember?_cases hafter with ⟨more, hcomma, hmore⟩ | ⟨hclose, rfl⟩
      · obtain ⟨ws, t, rfl, hws, rfl⟩ := Json.exists_blanks_letter hwrite (by decide) hcomma
        obtain ⟨others, members, back, rfl, hback, hmembers, rfl⟩ := ih hmore
        refine ⟨_, (name, form) :: members, back, by simp, hback, .more hname hform hws hmembers, ?_⟩
        rw [fillMembers_optionsIn_cons]
        cases form <;> simp
      · obtain ⟨ws, back, rfl, hws, rfl⟩ := Json.exists_blanks_letter hwrite (by decide) hclose
        refine ⟨_, [(name, form)], back, by simp, rfl, .last hname hform hws, ?_⟩
        rw [fillMembers_optionsIn_cons]
        cases form <;> simp [optionsIn, Form.fillMembers]

/-- A brace in front of an object is written by itself. -/
theorem exists_open (hwrite : Braced write) (h : Json.skipSpace (fill write t) = '\x7b' :: inner) :
    (∃ ws back, t = letters ws ++ .letter '\x7b' :: back ∧ Blanks ws ∧ fill write back = inner) ∨
      Json.skipSpace inner = inner ∧ inner.head? = some '\x7b' := by
  obtain ⟨ws, back, rfl, hws, hback⟩ := Json.exists_blanks hwrite t
  rw [h] at hback
  rcases Json.exists_brace_cons hwrite hback with ⟨tail, rfl, htail⟩ | ⟨more, rfl⟩
  · exact .inl ⟨ws, tail, rfl, hws, htail⟩
  · exact .inr ⟨Json.skipSpace_brace more, rfl⟩

theorem members?_brace {fuel : Nat} {done : List (String × Json)}
    (h : Json.skipSpace cs = '\x7b' :: rest) : Options.members? fuel done cs = none := by
  cases fuel with
  | zero => rfl
  | succ fuel => simp [Options.members?, Options.name?, h]

/-- A text with slots that is read as options spells an option object. -/
theorem exists_spellsOptions (hwrite : Braced write) {plain : Options}
    (h : Options.parse? (fill write t) = some plain) :
    ∃ members, SpellsOptions t members ∧
      Options.ofMembers? (filledMembers write (optionsIn members)) = some plain := by
  unfold Options.parse? at h
  split at h
  next docs rest hobject =>
    split_ifs at h with hspace
    suffices hspells : ∃ front members back, t = front ++ back ∧ fill write back = rest ∧
        (∀ ws, Blanks ws → SpellsOptions (front ++ letters ws) members) ∧
        docs = Form.fillMembers write (optionsIn members) by
      obtain ⟨front, members, back, rfl, rfl, hspells, rfl⟩ := hspells
      obtain ⟨ws, after, rfl, hws, hafter⟩ := Json.exists_blanks hwrite back
      rw [List.isEmpty_iff.1 hspace] at hafter
      obtain rfl := Text.eq_nil_of_fill_eq_nil hwrite.beginsWith.nonemptyFill hafter
      exact ⟨members, by simpa using hspells ws hws, h⟩
    unfold Options.object? at hobject
    split at hobject
    next inner hopen =>
      rcases exists_open hwrite hopen with ⟨ws, back, rfl, hws, rfl⟩ | ⟨hinner, hbrace⟩
      · split at hobject
        next hclose =>
          obtain ⟨rfl, rfl⟩ := Prod.mk.inj (Option.some.inj hobject)
          obtain ⟨ws', back, rfl, hws', rfl⟩ := Json.exists_blanks_letter hwrite (by decide) hclose
          exact ⟨letters ws ++ .letter '\x7b' :: (letters ws' ++ [.letter '\x7d']), [], back,
            by simp, rfl, fun ws'' hws'' => by simpa using .empty hws hws' hws'', rfl⟩
        next =>
          obtain ⟨front, members, back, rfl, rfl, hmembers, rfl⟩ :=
            exists_spellsMembers hwrite hobject
          exact ⟨letters ws ++ .letter '\x7b' :: (front ++ [.letter '\x7d']), members, back,
            by simp, rfl, fun ws' hws' => by simpa using .members hws hmembers hws', by simp⟩
      · obtain ⟨more, rfl⟩ := List.head?_eq_some_iff.1 hbrace
        rw [hinner, members?_brace hinner] at hobject
        cases hobject
    next => cases hobject
  next => cases h

/-! ## One object only -/

variable {t' name' front' back back' : Slotted σ} {form' : Option (Form σ)}
variable {members' : List (Slotted σ × Option (Form σ))} {ws ws' : List Char} {c c' : Char}

/-- The sign behind white space and what follows it. -/
theorem eq_of_blanks_sign (hws : Blanks ws) (hws' : Blanks ws') (hc : Json.isSpace c = false)
    (hc' : Json.isSpace c' = false)
    (h : (letters ws : Slotted σ) ++ .letter c :: back = letters ws' ++ .letter c' :: back') :
    c = c' ∧ back = back' := by
  have hfill : ∀ value : σ → List Char, c :: fill value back = c' :: fill value back' := by
    intro value
    have hskip := congrArg (fun t => Json.skipSpace (fill value t)) h
    simpa [Json.skipSpace_blanks hws hc, Json.skipSpace_blanks hws' hc'] using hskip
  exact ⟨(List.cons.inj (hfill fun _ => [])).1,
    Json.eq_of_fill_eq fun value _ => (List.cons.inj (hfill value)).2⟩

theorem SpellsName.unique (h : SpellsName name front) (h' : SpellsName name' front')
    (heq : front ++ t = front' ++ t') : name = name' ∧ t = t' := by
  have hread : ∀ value, FillsStrings value →
      (String.ofList (fill value name), fill value t) =
        (String.ofList (fill value name'), fill value t') := by
    intro value hvalue
    have hname := h.name?_eq hvalue (fill value t)
    rw [← Text.fill_append, heq, Text.fill_append, h'.name?_eq hvalue] at hname
    exact (Option.some.inj hname).symm
  exact ⟨Json.eq_of_string_fill_eq fun value hvalue => (Prod.mk.inj (hread value hvalue)).1,
    Json.eq_of_fill_eq fun value hvalue => (Prod.mk.inj (hread value hvalue)).2⟩

theorem SpellsValue.unique (h : SpellsValue name t form) (h' : SpellsValue name t' form')
    (hback : ∀ value : σ → List Char, EndsNumber (fill value back))
    (hback' : ∀ value : σ → List Char, EndsNumber (fill value back'))
    (heq : t ++ back = t' ++ back') : form = form' ∧ back = back' := by
  have hfill : ∀ value : σ → List Char,
      fill value t' ++ fill value back' = fill value t ++ fill value back := by
    intro value
    rw [← Text.fill_append, ← heq, Text.fill_append]
  cases h with
  | @option form hname hform =>
      cases h' with
      | @option form' hname' hform' =>
          have hread : ∀ value, FillsStrings value →
              (form.fill value, fill value back) = (form'.fill value, fill value back') := by
            intro value hvalue
            have hvalue' := hform'.isRead hvalue (2 * (fill value (t' ++ back')).length) _
              (by simp; omega) (hback' value)
            rw [hfill, hform.isRead hvalue _ _ (by rw [← heq]; simp; omega) (hback value)] at hvalue'
            exact Option.some.inj hvalue'
          rw [Form.eq_of_fill_eq fun value hvalue => (Prod.mk.inj (hread value hvalue)).1]
          exact ⟨rfl, Json.eq_of_fill_eq fun value hvalue => (Prod.mk.inj (hread value hvalue)).2⟩
      | other hname' hpasses' => exact absurd hname hname'
  | other hname hpasses =>
      cases h' with
      | option hname' hform' => exact absurd hname' hname
      | other hname' hpasses' =>
          refine ⟨rfl, Json.eq_of_fill_eq fun value hvalue => ?_⟩
          have hpass := hpasses'.pass?_eq hvalue (hback' value)
          rw [hfill, hpasses.pass?_eq hvalue (hback value)] at hpass
          exact Option.some.inj hpass

theorem endsNumber_blanks_sign (hws : Blanks ws)
    (hc : Json.isSpace c = false ∧ Json.isNumberSign c = false) (value : σ → List Char)
    (back : Slotted σ) : EndsNumber (fill value (letters ws ++ .letter c :: back)) := by
  simpa using (Json.sign_blanks hws hc (fill value back)).2

/-- A member, and the sign behind it. -/
theorem SpellsName.member_unique (hname : SpellsName name front) (hvalue : SpellsValue name t form)
    (hws : Blanks ws) (hname' : SpellsName name' front') (hvalue' : SpellsValue name' t' form')
    (hws' : Blanks ws') (hc : Json.isSpace c = false ∧ Json.isNumberSign c = false)
    (hc' : Json.isSpace c' = false ∧ Json.isNumberSign c' = false)
    (heq : front ++ (t ++ (letters ws ++ .letter c :: back)) =
      front' ++ (t' ++ (letters ws' ++ .letter c' :: back'))) :
    name = name' ∧ form = form' ∧ c = c' ∧ back = back' := by
  obtain ⟨rfl, htail⟩ := hname.unique hname' heq
  obtain ⟨rfl, hbehind⟩ := hvalue.unique hvalue'
    (endsNumber_blanks_sign hws hc · back) (endsNumber_blanks_sign hws' hc' · back') htail
  obtain ⟨rfl, rfl⟩ := eq_of_blanks_sign hws hws' hc.1 hc'.1 hbehind
  exact ⟨rfl, rfl, rfl, rfl⟩

theorem SpellsMembers.unique (h : SpellsMembers t members) (h' : SpellsMembers t' members')
    (heq : t ++ .letter '\x7d' :: back = t' ++ .letter '\x7d' :: back') :
    members = members' := by
  induction h generalizing t' members' with
  | last hname hvalue hws =>
      cases h' with
      | last hname' hvalue' hws' =>
          simp only [List.append_assoc] at heq
          obtain ⟨rfl, rfl, -, -⟩ := hname.member_unique hvalue hws hname' hvalue' hws'
            (by decide) (by decide) heq
          rfl
      | more hname' hvalue' hws' hmembers' =>
          simp only [List.append_assoc, List.cons_append] at heq
          obtain ⟨-, -, hc, -⟩ := hname.member_unique hvalue hws hname' hvalue' hws'
            (by decide) (by decide) heq
          exact absurd hc (by decide)
  | more hname hvalue hws hmembers ih =>
      cases h' with
      | last hname' hvalue' hws' =>
          simp only [List.append_assoc, List.cons_append] at heq
          obtain ⟨-, -, hc, -⟩ := hname.member_unique hvalue hws hname' hvalue' hws'
            (by decide) (by decide) heq
          exact absurd hc (by decide)
      | more hname' hvalue' hws' hmembers' =>
          simp only [List.append_assoc, List.cons_append] at heq
          obtain ⟨rfl, rfl, -, hrest⟩ := hname.member_unique hvalue hws hname' hvalue' hws'
            (by decide) (by decide) heq
          rw [ih hmembers' hrest]

theorem SpellsMembers.exists_quote (h : SpellsMembers t members) :
    ∃ ws back, t = letters ws ++ .letter '"' :: back ∧ Blanks ws := by
  cases h with
  | last hname _ _ | more hname _ _ _ =>
      obtain ⟨hws, -, -⟩ := hname
      exact ⟨_, _, by rw [List.append_assoc]; rfl, hws⟩

/-- A text spells one option object only. -/
theorem SpellsOptions.unique (h : SpellsOptions t members) (h' : SpellsOptions t members') :
    members = members' := by
  have hquote : ∀ {ws back inner behind : _} {members : List (Slotted σ × Option (Form σ))},
      Blanks ws → SpellsMembers inner members →
      (letters ws : Slotted σ) ++ .letter '\x7d' :: back ≠ inner ++ .letter '\x7d' :: behind := by
    intro ws back inner behind members hws hmembers heq
    obtain ⟨ws', tail, rfl, hws'⟩ := hmembers.exists_quote
    rw [List.append_assoc] at heq
    exact absurd (eq_of_blanks_sign hws hws' (by decide) (by decide) heq).1 (by decide)
  generalize htext : t = t' at h'
  cases h with
  | empty hws hinner _ =>
      cases h' with
      | empty _ _ _ => rfl
      | members hws' hmembers' _ =>
          exact absurd (eq_of_blanks_sign hws hws' (by decide) (by decide) htext).2
            (hquote hinner hmembers')
  | members hws hmembers _ =>
      cases h' with
      | empty hws' hinner' _ =>
          exact absurd (eq_of_blanks_sign hws hws' (by decide) (by decide) htext).2.symm
            (hquote hinner' hmembers)
      | members hws' hmembers' _ =>
          exact hmembers.unique hmembers'
            (eq_of_blanks_sign hws hws' (by decide) (by decide) htext).2

/-! ## Objects of documents -/

variable {depth : Nat} {form : Form σ} {forms : List (Slotted σ × Form σ)}

open scoped Classical in
/-- A member of a document as it is read among options. -/
noncomputable def asRead (member : Slotted σ × Form σ) : Slotted σ × Option (Form σ) :=
  (member.1, if IsOptionName member.1 then some member.2 else none)

theorem mem_of_mem_map_asRead (h : (name, some form) ∈ forms.map asRead) : (name, form) ∈ forms := by
  obtain ⟨⟨name', form'⟩, hmember, heq⟩ := List.mem_map.1 h
  obtain ⟨rfl, hform⟩ := Prod.mk.inj heq
  split_ifs at hform
  obtain rfl := Option.some.inj hform
  exact hmember

theorem SpellsValue.of_spells (h : Spells (Json.maxDepth - 1) t (.value form)) :
    SpellsValue name t (asRead (name, form)).2 := by
  by_cases hname : IsOptionName name
  · rw [asRead, if_pos hname]
    exact .option hname h
  · rw [asRead, if_neg hname]
    exact .other hname h.passes

theorem exists_spellsName_of_spells (h : Spells depth t (.member name form)) :
    ∃ front back, t = front ++ back ∧ SpellsName name front ∧ Spells depth back (.value form) := by
  cases h with
  | member hws hname hws' hform => exact ⟨_, _, by simp, .mk hws hname hws', hform⟩

theorem SpellsMembers.of_spells (h : Spells (Json.maxDepth - 1) t (.members forms)) :
    SpellsMembers t (forms.map asRead) := by
  generalize hdepth : Json.maxDepth - 1 = depth at h
  generalize hpart : Json.Part.members forms = part at h
  induction h generalizing forms with
  | lastMember hmember hws =>
      cases hpart
      obtain ⟨front, back, rfl, hname, hform⟩ := exists_spellsName_of_spells hmember
      rw [List.append_assoc]
      exact .last hname (.of_spells (hdepth ▸ hform)) hws
  | members hmember hws hmembers _ ih =>
      cases hpart
      obtain ⟨front, back, rfl, hname, hform⟩ := exists_spellsName_of_spells hmember
      rw [List.append_assoc]
      exact .more hname (.of_spells (hdepth ▸ hform)) hws (ih hdepth rfl)
  | _ => cases hpart

theorem SpellsOptions.blanks (hws : Blanks ws) (h : SpellsOptions t members) :
    SpellsOptions (letters ws ++ t) members := by
  have happend : ∀ {ws' : List Char}, Blanks ws' → Blanks (ws ++ ws') := fun hws' c hc =>
    (List.mem_append.1 hc).elim (hws c) (hws' c)
  cases h with
  | empty hws' hinner hws'' =>
      rw [← List.append_assoc, ← Text.letters_append]
      exact .empty (happend hws') hinner hws''
  | members hws' hmembers hws'' =>
      rw [← List.append_assoc, ← Text.letters_append]
      exact .members (happend hws') hmembers hws''

theorem SpellsOptions.of_spells (h : Spells Json.maxDepth t (.value (.object forms)))
    (hws : Blanks ws) : SpellsOptions (t ++ letters ws) (forms.map asRead) := by
  generalize hdepth : Json.maxDepth = depth at h
  generalize hpart : Json.Part.value (.object forms) = part at h
  induction h generalizing forms with
  | blanks hws' _ ih =>
      rw [List.append_assoc]
      exact (ih hdepth hpart).blanks hws'
  | emptyObject hinner =>
      cases hpart
      simpa using SpellsOptions.empty Json.blanks_nil hinner hws
  | @object depth t forms hmembers =>
      cases hpart
      obtain rfl : Json.maxDepth - 1 = depth := by omega
      simpa using SpellsOptions.members Json.blanks_nil (.of_spells hmembers) hws
  | _ => cases hpart

/-- An object of a document is an option object. -/
theorem SpellsOptions.of_spellsDocument (h : Json.SpellsDocument t (.object forms)) :
    SpellsOptions t (forms.map asRead) := by
  obtain ⟨front, ws, rfl, hws, hspells⟩ := h
  exact .of_spells hspells hws

theorem fillMembers_asRead (hfree : ∀ member ∈ forms, SlotFree member.1)
    (value : σ → List Char) :
    Form.fillMembers value (optionsIn (forms.map asRead)) =
      (Form.fillMembers value forms).filter fun member => member.1 ∈ Options.names := by
  induction forms with
  | nil => rfl
  | cons member forms ih =>
      obtain ⟨name, form⟩ := member
      rw [List.forall_mem_cons] at hfree
      have hname := isOptionName_iff hfree.1 value
      rw [List.map_cons, asRead, fillMembers_optionsIn_cons, ih hfree.2, Form.fillMembers]
      by_cases hoption : IsOptionName name
      · rw [if_pos hoption, List.filter_cons_of_pos (by simpa using hname.1 hoption)]
        rfl
      · rw [if_neg hoption, List.filter_cons_of_neg (by simpa using mt hname.2 hoption)]
        rfl

theorem filledMembers_asRead (hfree : ∀ member ∈ forms, SlotFree member.1)
    (value : σ → List Char) :
    filledMembers value (optionsIn (forms.map asRead)) =
      (filledMembers value forms).filter fun member => member.1 ∈ Options.names := by
  rw [filledMembers, fillMembers_asRead hfree, filledMembers, List.filter_map]
  rfl

theorem lookup?_filter {s : String} (hs : s ∈ Options.names) (docs : List (String × Json)) :
    Json.lookup? s (docs.filter fun member => member.1 ∈ Options.names) = Json.lookup? s docs := by
  induction docs with
  | nil => rfl
  | cons member docs ih =>
      obtain ⟨k, doc⟩ := member
      by_cases hk : k ∈ Options.names
      · rw [List.filter_cons_of_pos (by simpa using hk), Json.lookup?, Json.lookup?, ih]
      · have hother : k ≠ s := by
          rintro rfl
          exact hk hs
        rw [List.filter_cons_of_neg (by simpa using hk), Json.lookup?, if_neg hother, ih]

theorem count_filter {s : String} (hs : s ∈ Options.names) (docs : List (String × Json)) :
    Options.count s (docs.filter fun member => member.1 ∈ Options.names) =
      Options.count s docs := by
  rw [Options.count, List.countP_filter, Options.count]
  refine List.countP_congr fun member _ => ?_
  simp only [Bool.and_eq_true, beq_iff_eq, decide_eq_true_eq, and_iff_left_iff_imp]
  rintro rfl
  exact hs

/-- Members that are no options make no difference. -/
theorem ofMembers?_filter (docs : List (String × Json)) :
    Options.ofMembers? (docs.filter fun member => member.1 ∈ Options.names) =
      Options.ofMembers? docs := by
  have hcount : (Options.names.any fun s => decide (1 < Options.count s
        (docs.filter fun member => member.1 ∈ Options.names))) =
      Options.names.any fun s => decide (1 < Options.count s docs) := by
    rw [Bool.eq_iff_iff, List.any_eq_true, List.any_eq_true]
    exact exists_congr fun s => and_congr_right fun hs => by rw [count_filter hs]
  rw [Options.ofMembers?, Options.ofMembers?, hcount, lookup?_filter (by decide),
    lookup?_filter (by decide), lookup?_filter (by decide)]

/-- The options of an object of a document are read as those that it says. -/
theorem parse?_of_spellsDocument (hvalue : FillsStrings value)
    (hfree : ∀ member ∈ forms, SlotFree member.1)
    (h : Json.SpellsDocument t (.object forms)) :
    Options.parse? (fill value t) = Options.ofMembers? (filledMembers value forms) := by
  have hfree' : ∀ member ∈ forms.map asRead, SlotFree member.1 := by
    intro member hmember
    obtain ⟨written, hwritten, rfl⟩ := List.mem_map.1 hmember
    exact hfree written hwritten
  rw [(SpellsOptions.of_spellsDocument h).parse?_eq hvalue hfree', filledMembers_asRead hfree,
    ofMembers?_filter]

end BookRules.Request
