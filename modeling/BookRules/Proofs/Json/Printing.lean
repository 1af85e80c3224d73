import BookRules.Json.Printer
import BookRules.Proofs.Json.DistinctNames
import BookRules.Proofs.Json.Grammar

/-!
# Documents as they are printed

The compact text of a document and its text on several lines spell the document, when its
numbers read back and it is not nested too deeply.  A document in which no object has a name
twice is read back from them as it is.
-/

namespace BookRules.Json

open Text (Slotted letters fill)

variable {σ : Type} {value : σ → List Char} {depth : Nat}

/-- A document whose numbers read back, with at most `depth` arrays and objects inside each
other. -/
inductive Printable : Nat → Json → Prop
  | null {depth : Nat} : Printable depth .null
  | bool {depth : Nat} (b : Bool) : Printable depth (.bool b)
  | number {depth : Nat} {n : Number} (hnumber : number? n.text = some (n, [])) :
      Printable depth (.number n)
  | string {depth : Nat} (s : String) : Printable depth (.string s)
  | array {depth : Nat} {items : List Json} (hitems : ∀ item ∈ items, Printable depth item) :
      Printable (depth + 1) (.array items)
  | object {depth : Nat} {members : List (String × Json)}
      (hmembers : ∀ member ∈ members, Printable depth member.2) :
      Printable (depth + 1) (.object members)

/-! ## Strings -/

theorem hex4?_control : ∀ n < 0x20,
    hex4? '0' '0' (Text.hexDigit (n / 16)) (Text.hexDigit (n % 16)) = some n ∧
      isLowSurrogate n = false ∧ isHighSurrogate n = false := by
  decide

theorem spellsText_escapeChar (c : Char) {raw text : Slotted σ} (h : SpellsText raw text) :
    SpellsText (letters (escapeChar c) ++ raw) (.letter c :: text) := by
  have hescape : ∀ {d e : Char}, c = e → simpleEscape? d = some e →
      SpellsText (letters ['\\', d] ++ raw) (.letter c :: text) := by
    rintro d e rfl hd
    exact .escape hd h
  unfold escapeChar
  split_ifs with hquote hslash hback hfeed hline hreturn htab hcontrol
  all_goals simp only [beq_iff_eq] at *
  · exact hescape hquote (by decide)
  · exact hescape hslash (by decide)
  · exact hescape hback (by decide)
  · exact hescape hfeed (by decide)
  · exact hescape hline (by decide)
  · exact hescape hreturn (by decide)
  · exact hescape htab (by decide)
  · obtain ⟨hcode, hlow, hhigh⟩ := hex4?_control c.toNat hcontrol
    simpa using SpellsText.code hcode hlow hhigh h
  · exact .bare (by simp [isBare, hquote, hslash, hcontrol]) h

theorem spellsText_escaped (cs : List Char) :
    SpellsText (letters (cs.flatMap escapeChar) : Slotted σ) (letters cs) := by
  induction cs with
  | nil => exact .nil
  | cons c cs ih =>
      rw [List.flatMap_cons, Text.letters_append, Text.letters_cons]
      exact spellsText_escapeChar c ih

theorem letters_quote (s : String) :
    (letters (quote s) : Slotted σ) =
      .letter '"' :: (letters (s.toList.flatMap escapeChar) ++ [.letter '"']) := by
  simp [quote]

/-! ## Documents without slots -/

mutual

/-- A document as a form without slots. -/
def Form.ofJson : Json → Form σ
  | .null => .null
  | .bool b => .bool b
  | .number n => .number n
  | .string s => .string (letters s.toList)
  | .array items => .array (Form.ofItems items)
  | .object members => .object (Form.ofMembers members)

def Form.ofItems : List Json → List (Form σ)
  | [] => []
  | item :: rest => Form.ofJson item :: Form.ofItems rest

def Form.ofMembers : List (String × Json) → List (Slotted σ × Form σ)
  | [] => []
  | (name, value) :: rest => (letters name.toList, Form.ofJson value) :: Form.ofMembers rest

end

mutual

theorem Form.fill_ofJson (value : σ → List Char) (doc : Json) :
    (Form.ofJson doc).fill value = doc := by
  cases doc with
  | null => rfl
  | bool b => rfl
  | number n => rfl
  | string s => simp [Form.ofJson, Form.fill]
  | array items => rw [Form.ofJson, Form.fill, Form.fillItems_ofItems]
  | object members => rw [Form.ofJson, Form.fill, Form.fillMembers_ofMembers]

theorem Form.fillItems_ofItems (value : σ → List Char) (items : List Json) :
    Form.fillItems value (Form.ofItems items) = items := by
  cases items with
  | nil => rfl
  | cons item rest =>
      rw [Form.ofItems, Form.fillItems, Form.fill_ofJson, Form.fillItems_ofItems]

theorem Form.fillMembers_ofMembers (value : σ → List Char) (members : List (String × Json)) :
    Form.fillMembers value (Form.ofMembers members) = members := by
  cases members with
  | nil => rfl
  | cons member rest =>
      obtain ⟨name, doc⟩ := member
      rw [Form.ofMembers, Form.fillMembers, Form.fill_ofJson, Form.fillMembers_ofMembers]
      simp

end

theorem Form.ofItems_eq (items : List Json) :
    (Form.ofItems items : List (Form σ)) = items.map Form.ofJson := by
  induction items with
  | nil => rfl
  | cons item rest ih => rw [Form.ofItems, ih, List.map_cons]

def Form.ofMember (member : String × Json) : Slotted σ × Form σ :=
  (letters member.1.toList, Form.ofJson member.2)

theorem Form.ofMembers_eq (members : List (String × Json)) :
    (Form.ofMembers members : List (Slotted σ × Form σ)) = members.map Form.ofMember := by
  induction members with
  | nil => rfl
  | cons member rest ih =>
      obtain ⟨name, doc⟩ := member
      rw [Form.ofMembers, ih, List.map_cons]
      rfl

/-! ## Lines of items and members -/

/-- What is written with commas between its parts. -/
theorem eq_intercalate {α : Type} {write : List α → List Char} {part : α → List Char}
    (hnil : write [] = []) (hone : ∀ a, write [a] = part a)
    (hmore : ∀ a b rest, write (a :: b :: rest) = part a ++ ',' :: write (b :: rest))
    (items : List α) : write items = [','].intercalate (items.map part) := by
  induction items with
  | nil => exact hnil
  | cons a rest ih =>
      cases rest with
      | nil => simp [hone]
      | cons b rest =>
          rw [hmore, ih]
          simp

theorem spells_items {lines : List (List Char)} {forms : List (Form σ)} {ws : List Char}
    (hlines : List.Forall₂ (fun line form => Spells depth (letters line) (.value form))
      lines forms) (hne : forms ≠ []) (hws : Blanks ws) :
    Spells depth (letters ([','].intercalate lines ++ ws)) (.items forms) := by
  induction hlines with
  | nil => exact absurd rfl hne
  | @cons line form lines forms hline hlines ih =>
      cases hlines with
      | nil => simpa using Spells.lastItem hline hws
      | @cons line' form' lines forms hline' hlines =>
          have hrest := Spells.items hline blanks_nil (ih (by simp))
          simpa using hrest

theorem spells_members {lines : List (List Char)} {members : List (Slotted σ × Form σ)}
    {ws : List Char}
    (hlines : List.Forall₂ (fun line member =>
      Spells depth (letters line) (.member member.1 member.2)) lines members)
    (hne : members ≠ []) (hws : Blanks ws) :
    Spells depth (letters ([','].intercalate lines ++ ws)) (.members members) := by
  induction hlines with
  | nil => exact absurd rfl hne
  | @cons line member lines members hline hlines ih =>
      cases hlines with
      | nil => simpa using Spells.lastMember hline hws
      | @cons line' member' lines members hline' hlines =>
          have hrest := Spells.members hline blanks_nil (ih (by simp))
          simpa using hrest

theorem forall₂_map {α β γ : Type} {R : β → γ → Prop} {f : α → β} {g : α → γ} {items : List α}
    (h : ∀ a ∈ items, R (f a) (g a)) : List.Forall₂ R (items.map f) (items.map g) := by
  rw [List.forall₂_map_left_iff, List.forall₂_map_right_iff, List.forall₂_same]
  exact h

theorem spells_array {line : Json → List Char} {items : List Json} {ws : List Char}
    (hitems : ∀ item ∈ items,
      Spells depth (letters (line item) : Slotted σ) (.value (Form.ofJson item)))
    (hne : items ≠ []) (hws : Blanks ws) :
    Spells (depth + 1)
      (letters ('[' :: ([','].intercalate (items.map line) ++ ws ++ [']'])) : Slotted σ)
      (.value (Form.ofJson (.array items))) := by
  have hspells := Spells.array (spells_items (forall₂_map hitems) (by simpa using hne) hws)
  rw [Form.ofJson, Form.ofItems_eq]
  simpa using hspells

theorem spells_object {line : String × Json → List Char} {members : List (String × Json)}
    {ws : List Char}
    (hmembers : ∀ member ∈ members, Spells depth (letters (line member) : Slotted σ)
      (.member (letters member.1.toList) (Form.ofJson member.2)))
    (hne : members ≠ []) (hws : Blanks ws) :
    Spells (depth + 1)
      (letters ('\x7b' :: ([','].intercalate (members.map line) ++ ws ++ ['\x7d'])) : Slotted σ)
      (.value (Form.ofJson (.object members))) := by
  have hlines := @forall₂_map _ _ _
    (fun line (member : Slotted σ × Form σ) =>
      Spells depth (letters line) (.member member.1 member.2))
    line Form.ofMember members hmembers
  have hspells := Spells.object (spells_members hlines (by simpa using hne) hws)
  rw [Form.ofJson, Form.ofMembers_eq]
  simpa using hspells

theorem spells_member {ws line : List Char} {member : String × Json} (hws : Blanks ws)
    (hline : Spells depth (letters line : Slotted σ) (.value (Form.ofJson member.2))) :
    Spells depth (letters (ws ++ quote member.1 ++ ':' :: line) : Slotted σ)
      (.member (letters member.1.toList) (Form.ofJson member.2)) := by
  have hspells := Spells.member hws (spellsText_escaped member.1.toList) blanks_nil hline
  simpa [quote] using hspells

/-! ## Compact texts -/

theorem itemTexts_eq (items : List Json) :
    itemTexts items = [','].intercalate (items.map text) :=
  eq_intercalate rfl (fun _ => by simp [itemTexts]) (fun _ _ _ => by simp [itemTexts]) items

def memberText (member : String × Json) : List Char :=
  quote member.1 ++ ':' :: text member.2

theorem memberTexts_eq (members : List (String × Json)) :
    memberTexts members = [','].intercalate (members.map memberText) :=
  eq_intercalate rfl (fun _ => by simp [memberTexts, memberText])
    (fun _ _ _ => by simp [memberTexts, memberText]) members

theorem Printable.spells_text {doc : Json} (h : Printable depth doc) :
    Spells depth (letters doc.text : Slotted σ) (.value (Form.ofJson doc)) := by
  induction h with
  | null => exact .null
  | bool b =>
      cases b with
      | true => exact .yes
      | false => exact .no
  | number hnumber => exact .number hnumber
  | string s =>
      rw [text, letters_quote]
      exact .string (spellsText_escaped s.toList)
  | @array depth items _ ih =>
      cases items with
      | nil => exact .emptyArray blanks_nil
      | cons item rest =>
          rw [text, itemTexts_eq]
          simpa using spells_array ih (by simp) blanks_nil
  | @object depth members _ ih =>
      cases members with
      | nil => exact .emptyObject blanks_nil
      | cons member rest =>
          rw [text, memberTexts_eq]
          have hlines : ∀ member' ∈ member :: rest, Spells depth
              (letters (memberText member') : Slotted σ)
              (.member (letters member'.1.toList) (Form.ofJson member'.2)) :=
            fun member' hmember => spells_member blanks_nil (ih member' hmember)
          simpa using spells_object hlines (by simp) blanks_nil

/-! ## Texts on several lines -/

def itemLine (indent : List Char) (item : Json) : List Char :=
  '\n' :: indent ++ prettyText indent item

def memberLine (indent : List Char) (member : String × Json) : List Char :=
  '\n' :: indent ++ quote member.1 ++ ':' :: ' ' :: prettyText indent member.2

theorem prettyItems_eq (indent : List Char) (items : List Json) :
    prettyItems indent items = [','].intercalate (items.map (itemLine indent)) :=
  eq_intercalate rfl (fun _ => by simp [prettyItems, itemLine])
    (fun _ _ _ => by simp [prettyItems, itemLine]) items

theorem prettyMembers_eq (indent : List Char) (members : List (String × Json)) :
    prettyMembers indent members = [','].intercalate (members.map (memberLine indent)) :=
  eq_intercalate rfl (fun _ => by simp [prettyMembers, memberLine])
    (fun _ _ _ => by simp [prettyMembers, memberLine]) members

theorem Blanks.line {indent : List Char} (h : Blanks indent) : Blanks ('\n' :: indent) :=
  List.forall_mem_cons.2 ⟨by decide, h⟩

theorem Blanks.deeper {indent : List Char} (h : Blanks indent) :
    Blanks (' ' :: ' ' :: indent) :=
  List.forall_mem_cons.2 ⟨by decide, List.forall_mem_cons.2 ⟨by decide, h⟩⟩

theorem Printable.spells_prettyText {doc : Json} (h : Printable depth doc) {indent : List Char}
    (hindent : Blanks indent) :
    Spells depth (letters (prettyText indent doc) : Slotted σ) (.value (Form.ofJson doc)) := by
  induction h generalizing indent with
  | null => exact Printable.null.spells_text
  | bool b => exact (Printable.bool b).spells_text
  | number hnumber => exact (Printable.number hnumber).spells_text
  | string s => exact (Printable.string s).spells_text
  | @array depth items _ ih =>
      cases items with
      | nil => exact .emptyArray blanks_nil
      | cons item rest =>
          have hlines : ∀ item' ∈ item :: rest, Spells depth
              (letters (itemLine (' ' :: ' ' :: indent) item') : Slotted σ)
              (.value (Form.ofJson item')) := by
            intro item' hitem
            have hspells := ih item' hitem hindent.deeper
            simpa [itemLine] using Spells.blanks hindent.deeper.line hspells
          rw [prettyText, prettyItems_eq]
          simpa using spells_array hlines (by simp) hindent.line
  | @object depth members _ ih =>
      cases members with
      | nil => exact .emptyObject blanks_nil
      | cons member rest =>
          have hlines : ∀ member' ∈ member :: rest, Spells depth
              (letters (memberLine (' ' :: ' ' :: indent) member') : Slotted σ)
              (.member (letters member'.1.toList) (Form.ofJson member'.2)) := by
            intro member' hmember
            have hspells := ih member' hmember hindent.deeper
            have hspace : Blanks [' '] := by simp [Blanks, isSpace]
            exact spells_member hindent.deeper.line (Spells.blanks hspace hspells)
          rw [prettyText, prettyMembers_eq]
          simpa using spells_object hlines (by simp) hindent.line

/-! ## Reading back -/

theorem setMember_of_not_mem {name : String} {value : Json} {members : List (String × Json)}
    (h : name ∉ members.map Prod.fst) :
    setMember name value members = members ++ [(name, value)] := by
  induction members with
  | nil => rfl
  | cons member rest ih =>
      obtain ⟨k, v⟩ := member
      simp only [List.map_cons, List.mem_cons, not_or] at h
      rw [setMember, if_neg (Ne.symm h.1), ih h.2, List.cons_append]

theorem mergedMembers_eq {done members : List (String × Json)}
    (hnames : ((done ++ members).map Prod.fst).Nodup)
    (hvalues : ∀ member ∈ members, merged member.2 = member.2) :
    mergedMembers done members = done ++ members := by
  induction members generalizing done with
  | nil => simp [mergedMembers]
  | cons member rest ih =>
      obtain ⟨name, value⟩ := member
      have hnew : name ∉ done.map Prod.fst := by
        rw [List.map_append, List.map_cons] at hnames
        exact fun hmem => (List.nodup_append.1 hnames).2.2 name hmem name (by simp) rfl
      rw [List.forall_mem_cons] at hvalues
      rw [mergedMembers, hvalues.1, setMember_of_not_mem hnew, ih (by simpa using hnames) hvalues.2,
        List.append_assoc, List.singleton_append]

/-- Where no name stands twice, there is nothing to merge. -/
theorem Distinct.merged_eq {doc : Json} (h : doc.Distinct) : merged doc = doc := by
  induction doc using children_induction with
  | step doc ih =>
      obtain ⟨hnames, hchildren⟩ := distinct_iff.1 h
      cases doc with
      | array items =>
          have hitems : items.map merged = items.map id :=
            List.map_congr_left fun item hitem => ih item hitem (hchildren item hitem)
          rw [merged, mergedItems_eq, hitems, List.map_id]
      | object members =>
          have hvalues : ∀ member ∈ members, merged member.2 = member.2 := fun member hmember =>
            ih member.2 (List.mem_map_of_mem hmember) (hchildren _ (List.mem_map_of_mem hmember))
          have hdone : (([] ++ members).map Prod.fst).Nodup := hnames members rfl
          rw [merged, mergedMembers_eq hdone hvalues, List.nil_append]
      | null => rfl
      | bool b => rfl
      | number n => rfl
      | string s => rfl

/-- A text that spells a document without slots is read as that document. -/
theorem parse?_of_spells {cs : List Char} {doc : Json}
    (hspells : Spells maxDepth (letters cs : Slotted Empty) (.value (Form.ofJson doc)))
    (hdistinct : doc.Distinct) : parse? cs = some doc := by
  have hvalue : FillsStrings (Empty.elim : Empty → List Char) := fun s => s.elim
  have hwritten := hspells.written?_eq hvalue blanks_nil
  rw [Form.fill_ofJson] at hwritten
  rw [parse?]
  simpa [hdistinct.merged_eq] using congrArg (Option.map merged) hwritten

theorem parse?_text {doc : Json} (h : Printable maxDepth doc) (hdistinct : doc.Distinct) :
    parse? doc.text = some doc :=
  parse?_of_spells h.spells_text hdistinct

theorem parse?_prettyText {doc : Json} (h : Printable maxDepth doc)
    (hdistinct : doc.Distinct) : parse? (prettyText [] doc) = some doc :=
  parse?_of_spells (h.spells_prettyText blanks_nil) hdistinct

end BookRules.Json
