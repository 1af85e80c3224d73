import BookRules.Proofs.Json.Numbers
import BookRules.Proofs.Text.Slotted

/-!
# JSON texts with slots

A JSON text may have slots inside its strings.  What it spells is a document with slots, and
filling the slots of the text with characters that a string may hold as they are is the same
as filling those of the document: such a text can be read whatever is put into it.
-/

namespace BookRules.Json

open Text (Sign Slotted letters fill SlotFree)

/-- A document with slots in its texts and names. -/
inductive Form (σ : Type)
  | null
  | bool (b : Bool)
  | number (n : Number)
  | string (text : Slotted σ)
  | array (items : List (Form σ))
  | object (members : List (Slotted σ × Form σ))

variable {σ : Type}

mutual

def Form.fill (value : σ → List Char) : Form σ → Json
  | .null => .null
  | .bool b => .bool b
  | .number n => .number n
  | .string text => .string (String.ofList (Text.fill value text))
  | .array items => .array (Form.fillItems value items)
  | .object members => .object (Form.fillMembers value members)

def Form.fillItems (value : σ → List Char) : List (Form σ) → List Json
  | [] => []
  | item :: rest => item.fill value :: Form.fillItems value rest

def Form.fillMembers (value : σ → List Char) : List (Slotted σ × Form σ) → List (String × Json)
  | [] => []
  | (name, form) :: rest =>
    (String.ofList (Text.fill value name), form.fill value) :: Form.fillMembers value rest

end

def Form.fillMember (value : σ → List Char) (member : Slotted σ × Form σ) : String × Json :=
  (String.ofList (Text.fill value member.1), member.2.fill value)

theorem Form.fillMembers_eq (value : σ → List Char) (members : List (Slotted σ × Form σ)) :
    Form.fillMembers value members = members.map (Form.fillMember value) := by
  induction members with
  | nil => rfl
  | cons member rest ih =>
      obtain ⟨name, form⟩ := member
      rw [Form.fillMembers, ih, List.map_cons]
      rfl

/-! ## The texts of documents -/

/-- A character that stands for itself in a string. -/
def isBare (c : Char) : Bool :=
  !(c.toNat < 0x20 || c == '"' || c == '\\')

def Blanks (cs : List Char) : Prop :=
  ∀ c ∈ cs, isSpace c = true

/-- The inside of a string, and the text that it spells. -/
inductive SpellsText : Slotted σ → Slotted σ → Prop
  | nil : SpellsText [] []
  | bare {c : Char} {raw text : Slotted σ} (hbare : isBare c = true)
      (hrest : SpellsText raw text) : SpellsText (.letter c :: raw) (.letter c :: text)
  | slot {s : σ} {raw text : Slotted σ} (hrest : SpellsText raw text) :
      SpellsText (.slot s :: raw) (.slot s :: text)
  | escape {c e : Char} {raw text : Slotted σ} (hescape : simpleEscape? c = some e)
      (hrest : SpellsText raw text) : SpellsText (letters ['\\', c] ++ raw) (.letter e :: text)
  | code {a b c d : Char} {n : Nat} {raw text : Slotted σ} (hcode : hex4? a b c d = some n)
      (hlow : isLowSurrogate n = false) (hhigh : isHighSurrogate n = false)
      (hrest : SpellsText raw text) :
      SpellsText (letters ['\\', 'u', a, b, c, d] ++ raw) (.letter (Char.ofNat n) :: text)
  | surrogates {a b c d e f g h : Char} {high low : Nat} {raw text : Slotted σ}
      (hcode : hex4? a b c d = some high) (hhigh : isHighSurrogate high = true)
      (hcode' : hex4? e f g h = some low) (hlow : isLowSurrogate low = true)
      (hrest : SpellsText raw text) :
      SpellsText (letters ['\\', 'u', a, b, c, d, '\\', 'u', e, f, g, h] ++ raw)
        (.letter (Char.ofNat (0x10000 + (high - 0xD800) * 0x400 + (low - 0xDC00))) :: text)

/-- What a text can spell: a value, or what stands inside an array or an object. -/
inductive Part (σ : Type)
  | value (form : Form σ)
  | items (forms : List (Form σ))
  | member (name : Slotted σ) (form : Form σ)
  | members (members : List (Slotted σ × Form σ))

/-- A text and what it spells; `depth` arrays and objects may be open at a time. -/
inductive Spells : Nat → Slotted σ → Part σ → Prop
  | blanks {depth : Nat} {ws : List Char} {t : Slotted σ} {form : Form σ} (hws : Blanks ws)
      (hform : Spells depth t (.value form)) : Spells depth (letters ws ++ t) (.value form)
  | null {depth : Nat} : Spells depth (letters ['n', 'u', 'l', 'l']) (.value .null)
  | yes {depth : Nat} : Spells depth (letters ['t', 'r', 'u', 'e']) (.value (.bool true))
  | no {depth : Nat} : Spells depth (letters ['f', 'a', 'l', 's', 'e']) (.value (.bool false))
  | number {depth : Nat} {cs : List Char} {n : Number} (hnumber : number? cs = some (n, [])) :
      Spells depth (letters cs) (.value (.number n))
  | string {depth : Nat} {raw text : Slotted σ} (htext : SpellsText raw text) :
      Spells depth (.letter '"' :: (raw ++ [.letter '"'])) (.value (.string text))
  | emptyArray {depth : Nat} {ws : List Char} (hws : Blanks ws) :
      Spells (depth + 1) (.letter '[' :: (letters ws ++ [.letter ']'])) (.value (.array []))
  | array {depth : Nat} {t : Slotted σ} {forms : List (Form σ)}
      (hforms : Spells depth t (.items forms)) :
      Spells (depth + 1) (.letter '[' :: (t ++ [.letter ']'])) (.value (.array forms))
  | emptyObject {depth : Nat} {ws : List Char} (hws : Blanks ws) :
      Spells (depth + 1) (.letter '\x7b' :: (letters ws ++ [.letter '\x7d']))
        (.value (.object []))
  | object {depth : Nat} {t : Slotted σ} {members : List (Slotted σ × Form σ)}
      (hmembers : Spells depth t (.members members)) :
      Spells (depth + 1) (.letter '\x7b' :: (t ++ [.letter '\x7d'])) (.value (.object members))
  | lastItem {depth : Nat} {ws : List Char} {t : Slotted σ} {form : Form σ}
      (hform : Spells depth t (.value form)) (hws : Blanks ws) :
      Spells depth (t ++ letters ws) (.items [form])
  | items {depth : Nat} {ws : List Char} {t rest : Slotted σ} {form : Form σ}
      {forms : List (Form σ)} (hform : Spells depth t (.value form)) (hws : Blanks ws)
      (hforms : Spells depth rest (.items forms)) :
      Spells depth (t ++ (letters ws ++ .letter ',' :: rest)) (.items (form :: forms))
  | member {depth : Nat} {ws ws' : List Char} {raw name t : Slotted σ} {form : Form σ}
      (hws : Blanks ws) (hname : SpellsText raw name) (hws' : Blanks ws')
      (hform : Spells depth t (.value form)) :
      Spells depth
        (letters ws ++ .letter '"' :: (raw ++ .letter '"' :: (letters ws' ++ .letter ':' :: t)))
        (.member name form)
  | lastMember {depth : Nat} {ws : List Char} {t name : Slotted σ} {form : Form σ}
      (hmember : Spells depth t (.member name form)) (hws : Blanks ws) :
      Spells depth (t ++ letters ws) (.members [(name, form)])
  | members {depth : Nat} {ws : List Char} {t rest name : Slotted σ} {form : Form σ}
      {members : List (Slotted σ × Form σ)} (hmember : Spells depth t (.member name form))
      (hws : Blanks ws) (hmembers : Spells depth rest (.members members)) :
      Spells depth (t ++ (letters ws ++ .letter ',' :: rest)) (.members ((name, form) :: members))

/-! ## White space -/

theorem blanks_nil : Blanks [] := by
  simp [Blanks]

theorem skipSpace_append {ws : List Char} (hws : Blanks ws) (cs : List Char) :
    skipSpace (ws ++ cs) = skipSpace cs :=
  List.dropWhile_append_of_pos hws

theorem skipSpace_cons {c : Char} (hc : isSpace c = false) (cs : List Char) :
    skipSpace (c :: cs) = c :: cs := by
  simp [skipSpace, hc]

theorem skipSpace_blanks {ws : List Char} {c : Char} (hws : Blanks ws) (hc : isSpace c = false)
    (cs : List Char) : skipSpace (ws ++ c :: cs) = c :: cs := by
  rw [skipSpace_append hws, skipSpace_cons hc]

theorem endsNumber_blanks {ws cs : List Char} (hws : Blanks ws) (hcs : EndsNumber cs) :
    EndsNumber (ws ++ cs) := by
  cases ws with
  | nil => exact hcs
  | cons c ws =>
      rw [List.cons_append, endsNumber_cons]
      have hc : isSpace c = true := hws c List.mem_cons_self
      simp only [isSpace, Bool.or_eq_true, beq_iff_eq] at hc
      rcases hc with ((rfl | rfl) | rfl) | rfl <;> rfl

/-- A sign that ends a number stands behind white space as by itself. -/
theorem sign_blanks {ws : List Char} {c : Char} (hws : Blanks ws)
    (hc : isSpace c = false ∧ isNumberSign c = false) (cs : List Char) :
    skipSpace (ws ++ c :: cs) = c :: cs ∧ EndsNumber (ws ++ c :: cs) :=
  ⟨skipSpace_blanks hws hc.1 cs, endsNumber_blanks hws (endsNumber_cons.2 hc.2)⟩

/-! ## Strings -/

variable {value : σ → List Char}

/-- A string may hold what is put into the slots. -/
abbrev FillsStrings (value : σ → List Char) : Prop :=
  Text.FilledFrom (fun c => isBare c = true) value

theorem stringTail?_quote (done rest : List Char) :
    stringTail? done ('"' :: rest) = some (String.ofList done.reverse, rest) :=
  rfl

theorem stringTail?_bare {c : Char} (hbare : isBare c = true) (done rest : List Char) :
    stringTail? done (c :: rest) = stringTail? (c :: done) rest := by
  simp only [isBare, Bool.not_eq_true', Bool.or_eq_false_iff, beq_eq_false_iff_ne] at hbare
  obtain ⟨⟨hcontrol, hquote⟩, hslash⟩ := hbare
  rw [stringTail?, hcontrol, beq_false_of_ne hslash]
  · rfl
  · exact hquote
  · exact fun _ _ _ _ _ h _ => hslash h
  · exact fun _ _ h _ => hslash h

theorem stringTail?_append {front : List Char} (hfront : ∀ c ∈ front, isBare c = true)
    (done rest : List Char) :
    stringTail? done (front ++ rest) = stringTail? (front.reverse ++ done) rest := by
  induction front generalizing done with
  | nil => rfl
  | cons c front ih =>
      rw [List.forall_mem_cons] at hfront
      rw [List.cons_append, stringTail?_bare hfront.1, ih hfront.2, List.reverse_cons,
        List.append_assoc, List.singleton_append]

theorem stringTail?_escape {c e : Char} (hescape : simpleEscape? c = some e)
    (done rest : List Char) :
    stringTail? done ('\\' :: c :: rest) = stringTail? (e :: done) rest := by
  rw [stringTail?, hescape]
  rintro _ _ _ _ _ rfl -
  simp [simpleEscape?] at hescape

theorem stringTail?_code {a b c d : Char} {n : Nat} (hcode : hex4? a b c d = some n)
    (hlow : isLowSurrogate n = false) (hhigh : isHighSurrogate n = false)
    (done rest : List Char) :
    stringTail? done ('\\' :: 'u' :: a :: b :: c :: d :: rest) =
      stringTail? (Char.ofNat n :: done) rest := by
  rw [stringTail?]
  simp [hcode, hlow, hhigh]

theorem not_isLowSurrogate {n : Nat} (h : isHighSurrogate n = true) :
    isLowSurrogate n = false := by
  simp only [isHighSurrogate, isLowSurrogate, Bool.and_eq_true, decide_eq_true_eq,
    Bool.and_eq_false_iff, decide_eq_false_iff_not] at *
  omega

theorem stringTail?_surrogates {a b c d e f g h : Char} {high low : Nat}
    (hcode : hex4? a b c d = some high) (hhigh : isHighSurrogate high = true)
    (hcode' : hex4? e f g h = some low) (hlow : isLowSurrogate low = true)
    (done rest : List Char) :
    stringTail? done
        ('\\' :: 'u' :: a :: b :: c :: d :: '\\' :: 'u' :: e :: f :: g :: h :: rest) =
      stringTail? (Char.ofNat (0x10000 + (high - 0xD800) * 0x400 + (low - 0xDC00)) :: done)
        rest := by
  rw [stringTail?]
  simp [hcode, not_isLowSurrogate hhigh, hhigh, hcode', hlow]

/-- A string is read as what it spells. -/
theorem SpellsText.stringTail?_eq (hvalue : FillsStrings value) {raw text : Slotted σ}
    (h : SpellsText raw text) (done rest : List Char) :
    stringTail? done (Text.fill value raw ++ '"' :: rest) =
      some (String.ofList (done.reverse ++ Text.fill value text), rest) := by
  induction h generalizing done with
  | nil => simp [stringTail?_quote]
  | bare hbare hrest ih =>
      rw [Text.fill_letter, List.cons_append, stringTail?_bare hbare, ih]
      simp
  | slot hrest ih =>
      rw [Text.fill_slot, List.append_assoc, stringTail?_append (hvalue _), ih]
      simp
  | escape hescape hrest ih =>
      rw [Text.fill_append, Text.fill_letters, List.append_assoc, List.cons_append,
        List.cons_append, List.nil_append, stringTail?_escape hescape, ih]
      simp
  | code hcode hlow hhigh hrest ih =>
      rw [Text.fill_append, Text.fill_letters, List.append_assoc]
      simp only [List.cons_append, List.nil_append]
      rw [stringTail?_code hcode hlow hhigh, ih]
      simp
  | surrogates hcode hhigh hcode' hlow hrest ih =>
      rw [Text.fill_append, Text.fill_letters, List.append_assoc]
      simp only [List.cons_append, List.nil_append]
      rw [stringTail?_surrogates hcode hhigh hcode' hlow, ih]
      simp

/-! ## Values -/

/-- Read what stands behind an item. -/
def afterItem? (fuel depth : Nat) (done : List Json) :
    List Char → Option (List Json × List Char)
  | ',' :: rest => items? fuel depth done rest
  | ']' :: rest => some (done.reverse, rest)
  | _ => none

def afterMember? (fuel depth : Nat) (done : List (String × Json)) :
    List Char → Option (List (String × Json) × List Char)
  | ',' :: rest => members? fuel depth done rest
  | '\x7d' :: rest => some (done.reverse, rest)
  | _ => none

/-- The texts that a part can stand in front of, and what is read there. -/
def Part.IsRead (value : σ → List Char) (depth : Nat) (t : Slotted σ) : Part σ → Prop
  | .value form => ∀ fuel rest, 2 * (Text.fill value t).length ≤ fuel + 1 → EndsNumber rest →
      value? fuel depth (Text.fill value t ++ rest) = some (form.fill value, rest)
  | .items forms => ∀ fuel done rest, 2 * (Text.fill value t).length ≤ fuel →
      items? fuel depth done (Text.fill value t ++ ']' :: rest) =
        some (done.reverse ++ Form.fillItems value forms, rest)
  | .member name form => ∀ fuel done rest, 2 * (Text.fill value t).length ≤ fuel + 1 →
      EndsNumber rest →
      members? (fuel + 1) depth done (Text.fill value t ++ rest) =
        afterMember? fuel depth (Form.fillMember value (name, form) :: done) (skipSpace rest)
  | .members list => ∀ fuel done rest, 2 * (Text.fill value t).length ≤ fuel →
      members? fuel depth done (Text.fill value t ++ '\x7d' :: rest) =
        some (done.reverse ++ Form.fillMembers value list, rest)

theorem value?_congr {cs cs' : List Char} (h : skipSpace cs = skipSpace cs') (fuel depth : Nat) :
    value? fuel depth cs = value? fuel depth cs' := by
  cases fuel with
  | zero => rfl
  | succ fuel => simp only [value?, h]

theorem number?_head {cs rest : List Char} {n : Number} (h : number? cs = some (n, rest)) :
    ∃ c cs', cs = c :: cs' ∧ (c = '-' ∨ Decimal.isDigit c = true) := by
  cases cs with
  | nil => simp [number?, numberTail?] at h
  | cons c cs =>
      refine ⟨c, cs, rfl, ?_⟩
      by_cases hminus : c = '-'
      · exact Or.inl hminus
      · rw [number?] at h
        · by_cases hdigit : Decimal.isDigit c = true
          · exact Or.inr hdigit
          · simp [numberTail?, hdigit] at h
        · rintro _ hc
          exact hminus (List.cons.inj hc).1

theorem value?_number {cs rest : List Char} {n : Number} (h : number? cs = some (n, rest))
    (fuel depth : Nat) : value? (fuel + 1) depth cs = some (.number n, rest) := by
  obtain ⟨c, cs', rfl, hc⟩ := number?_head h
  have hne : ∀ d : Char, d ≠ '-' → Decimal.isDigit d = false → c ≠ d := by
    rintro d hminus hdigit rfl
    simp [hminus, hdigit] at hc
  have hspace : isSpace c = false := by
    simp [isSpace, hne ' ', hne '\n', hne '\t', hne '\r', Decimal.isDigit]
  rw [value?, skipSpace_cons hspace]
  have hnull := hne 'n' (by decide) (by decide)
  have htrue := hne 't' (by decide) (by decide)
  have hfalse := hne 'f' (by decide) (by decide)
  have hquote := hne '"' (by decide) (by decide)
  have harray := hne '[' (by decide) (by decide)
  have hobject := hne '\x7b' (by decide) (by decide)
  split <;> simp_all

theorem value?_string (hvalue : FillsStrings value) {raw text : Slotted σ}
    (htext : SpellsText raw text) (fuel depth : Nat) (rest : List Char) :
    value? (fuel + 1) depth ('"' :: (Text.fill value raw ++ '"' :: rest)) =
      some (.string (String.ofList (Text.fill value text)), rest) := by
  exact congrArg (Option.map _) (htext.stringTail?_eq hvalue [] rest)

/-! ### Arrays and objects -/

variable {fuel depth : Nat} {cs more rest : List Char}

theorem items?_close (h : skipSpace cs = ']' :: rest) (done : List Json) :
    items? fuel depth done cs = none := by
  cases fuel with
  | zero => rfl
  | succ fuel =>
      have hvalue : value? fuel depth cs = none := by
        rw [value?_congr (h.trans (skipSpace_cons (by decide) rest).symm)]
        cases fuel <;> rfl
      rw [items?, hvalue]

theorem members?_close (h : skipSpace cs = '\x7d' :: rest) (done : List (String × Json)) :
    members? fuel depth done cs = none := by
  cases fuel with
  | zero => rfl
  | succ fuel => simp [members?, h]

theorem value?_bracket (cs : List Char) :
    value? (fuel + 1) (depth + 1) ('[' :: cs) =
      match skipSpace cs with
      | ']' :: rest => some (.array [], rest)
      | _ => (items? fuel depth [] cs).map fun (items, rest) => (.array items, rest) :=
  rfl

theorem value?_brace (cs : List Char) :
    value? (fuel + 1) (depth + 1) ('\x7b' :: cs) =
      match skipSpace cs with
      | '\x7d' :: rest => some (.object [], rest)
      | _ => (members? fuel depth [] cs).map fun (members, rest) => (.object members, rest) :=
  rfl

theorem value?_array {items : List Json} (h : items? fuel depth [] cs = some (items, rest)) :
    value? (fuel + 1) (depth + 1) ('[' :: cs) = some (.array items, rest) := by
  rw [value?_bracket]
  split
  · next hclose => simp [items?_close hclose] at h
  · simp [h]

theorem value?_object {members : List (String × Json)}
    (h : members? fuel depth [] cs = some (members, rest)) :
    value? (fuel + 1) (depth + 1) ('\x7b' :: cs) = some (.object members, rest) := by
  rw [value?_brace]
  split
  · next hclose => simp [members?_close hclose] at h
  · simp [h]

theorem items?_item {item : Json} (hitem : value? fuel depth cs = some (item, more))
    (done : List Json) :
    items? (fuel + 1) depth done cs = afterItem? fuel depth (item :: done) (skipSpace more) := by
  simp only [items?, hitem]
  rfl

theorem members?_member {name : String} {value : Json} {inner colon after : List Char}
    (hquote : skipSpace cs = '"' :: inner) (hname : stringTail? [] inner = some (name, colon))
    (hcolon : skipSpace colon = ':' :: after) (hvalue : value? fuel depth after = some (value, more))
    (done : List (String × Json)) :
    members? (fuel + 1) depth done cs =
      afterMember? fuel depth ((name, value) :: done) (skipSpace more) := by
  simp only [members?, hquote, hname, hcolon, hvalue]
  rfl

theorem exists_fuel {n : Nat} (h : 2 * n ≤ fuel + 1) (hn : 0 < n) : ∃ m, fuel = m + 1 :=
  ⟨fuel - 1, by omega⟩

theorem Spells.member_pos {t name : Slotted σ} {form : Form σ}
    (h : Spells depth t (.member name form)) : 0 < (Text.fill value t).length := by
  cases h
  simp only [Text.fill_append, Text.fill_letter, List.length_append, List.length_cons]
  omega

/-- What a text spells is read from it, whatever its slots are filled with. -/
theorem Spells.isRead (hvalue : FillsStrings value) {depth : Nat} {t : Slotted σ}
    {part : Part σ} (h : Spells depth t part) : part.IsRead value depth t := by
  induction h with
  | @blanks depth ws t form hws _ ih =>
      intro fuel rest hfuel hrest
      rw [Text.fill_append, Text.fill_letters, List.append_assoc,
        value?_congr (skipSpace_append hws _)]
      refine ih fuel rest ?_ hrest
      simp only [Text.fill_append, List.length_append] at hfuel
      omega
  | null =>
      intro fuel rest hfuel hrest
      obtain ⟨fuel, rfl⟩ := exists_fuel hfuel (by simp)
      rfl
  | yes =>
      intro fuel rest hfuel hrest
      obtain ⟨fuel, rfl⟩ := exists_fuel hfuel (by simp)
      rfl
  | no =>
      intro fuel rest hfuel hrest
      obtain ⟨fuel, rfl⟩ := exists_fuel hfuel (by simp)
      rfl
  | @number depth cs n hnumber =>
      intro fuel rest hfuel hrest
      obtain ⟨c, cs', rfl, -⟩ := number?_head hnumber
      obtain ⟨fuel, rfl⟩ := exists_fuel hfuel (by simp)
      rw [Text.fill_letters]
      exact value?_number (number?_append hnumber hrest) fuel depth
  | string htext =>
      intro fuel rest hfuel hrest
      obtain ⟨fuel, rfl⟩ := exists_fuel hfuel (by simp)
      simpa [Form.fill] using value?_string hvalue htext fuel _ rest
  | @emptyArray depth ws hws =>
      intro fuel rest hfuel hrest
      obtain ⟨fuel, rfl⟩ := exists_fuel hfuel (by simp)
      have hclose : skipSpace (ws ++ ']' :: rest) = ']' :: rest :=
        skipSpace_blanks hws (by decide) rest
      simp [Form.fill, Form.fillItems, value?_bracket, hclose]
  | @array depth t forms _ ih =>
      intro fuel rest hfuel hrest
      obtain ⟨fuel, rfl⟩ := exists_fuel hfuel (by simp)
      have hitems := ih fuel [] rest (by simp at hfuel; omega)
      simpa [Form.fill] using value?_array hitems
  | @emptyObject depth ws hws =>
      intro fuel rest hfuel hrest
      obtain ⟨fuel, rfl⟩ := exists_fuel hfuel (by simp)
      have hclose : skipSpace (ws ++ '\x7d' :: rest) = '\x7d' :: rest :=
        skipSpace_blanks hws (by decide) rest
      simp [Form.fill, Form.fillMembers, value?_brace, hclose]
  | @object depth t members _ ih =>
      intro fuel rest hfuel hrest
      obtain ⟨fuel, rfl⟩ := exists_fuel hfuel (by simp)
      have hmembers := ih fuel [] rest (by simp at hfuel; omega)
      simpa [Form.fill] using value?_object hmembers
  | @lastItem depth ws t form _ hws ih =>
      intro fuel done rest hfuel
      simp only [Text.fill_append, Text.fill_letters, List.length_append] at hfuel
      obtain ⟨hclose, hends⟩ := @sign_blanks ws ']' hws (by decide) rest
      cases fuel with
      | zero => simpa [value?] using ih 0 _ (by omega) hends
      | succ fuel =>
          have hlast := items?_item (ih fuel _ (by omega) hends) done
          rw [hclose] at hlast
          simpa [afterItem?, Form.fillItems] using hlast
  | @items depth ws t inner form forms _ hws _ ih ih' =>
      intro fuel done rest hfuel
      simp only [Text.fill_append, Text.fill_letters, Text.fill_letter, List.length_append,
        List.length_cons] at hfuel
      obtain ⟨hcomma, hends⟩ :=
        @sign_blanks ws ',' hws (by decide) (Text.fill value inner ++ ']' :: rest)
      obtain ⟨fuel, rfl⟩ : ∃ m, fuel = m + 1 := ⟨fuel - 1, by omega⟩
      have hitem := items?_item (ih fuel _ (by omega) hends) done
      rw [hcomma] at hitem
      have hmore := hitem.trans (ih' fuel _ rest (by omega))
      simpa [Form.fillItems] using hmore
  | @member depth ws ws' raw name t form hws hname hws' _ ih =>
      intro fuel done rest hfuel hrest
      simp only [Text.fill_append, Text.fill_letters, Text.fill_letter, List.length_append,
        List.length_cons] at hfuel
      have hquote := skipSpace_blanks hws (by decide : isSpace '"' = false)
        (Text.fill value raw ++ '"' :: (ws' ++ ':' :: (Text.fill value t ++ rest)))
      have hstring := hname.stringTail?_eq hvalue []
        (ws' ++ ':' :: (Text.fill value t ++ rest))
      have hcolon := skipSpace_blanks hws' (by decide : isSpace ':' = false)
        (Text.fill value t ++ rest)
      have hform := ih fuel rest (by omega) hrest
      simpa [Form.fillMember] using members?_member hquote hstring hcolon hform done
  | @lastMember depth ws t name form hmember hws ih =>
      intro fuel done rest hfuel
      simp only [Text.fill_append, Text.fill_letters, List.length_append] at hfuel
      have hpos : 0 < (Text.fill value t).length := hmember.member_pos
      obtain ⟨hclose, hends⟩ := @sign_blanks ws '\x7d' hws (by decide) rest
      obtain ⟨fuel, rfl⟩ : ∃ m, fuel = m + 1 := ⟨fuel - 1, by omega⟩
      have hlast := ih fuel done _ (by omega) hends
      rw [hclose] at hlast
      simpa [afterMember?, Form.fillMembers, Form.fillMember] using hlast
  | @members depth ws t inner name form list _ hws _ ih ih' =>
      intro fuel done rest hfuel
      simp only [Text.fill_append, Text.fill_letters, Text.fill_letter, List.length_append,
        List.length_cons] at hfuel
      obtain ⟨hcomma, hends⟩ :=
        @sign_blanks ws ',' hws (by decide) (Text.fill value inner ++ '\x7d' :: rest)
      obtain ⟨fuel, rfl⟩ : ∃ m, fuel = m + 1 := ⟨fuel - 1, by omega⟩
      have hmember := ih fuel done _ (by omega) hends
      rw [hcomma] at hmember
      have hmore := hmember.trans (ih' fuel _ rest (by omega))
      simpa [Form.fillMembers, Form.fillMember] using hmore

/-- A document is read from a text that spells it, and nothing else is. -/
theorem Spells.written?_eq (hvalue : FillsStrings value) {t : Slotted σ} {form : Form σ}
    {ws : List Char} (h : Spells maxDepth t (.value form)) (hws : Blanks ws) :
    written? (Text.fill value (t ++ letters ws)) = some (form.fill value) := by
  have hspace : skipSpace ws = [] := List.dropWhile_eq_nil_iff.2 hws
  have hends : EndsNumber ws := by
    simpa using endsNumber_blanks hws endsNumber_nil
  have hread := h.isRead hvalue (2 * (Text.fill value (t ++ letters ws)).length + 2) ws
    (by simp; omega) hends
  rw [Text.fill_append, Text.fill_letters] at hread ⊢
  rw [written?, hread]
  simp [hspace]

end BookRules.Json
