import BookRules.Proofs.Json.Grammar

/-!
# What a text with slots spells

A slot that is written as two braces can stand inside a string only: nowhere else do two
braces stand side by side in a JSON text.  A text with slots that is a JSON text as it is
written therefore spells a document with slots.
-/

namespace BookRules.Json

open Text (Sign Slotted letters fill exists_letters_append exists_letter_cons)

variable {σ : Type} {write : σ → List Char}

/-- The slots are written as two braces and something that does not end a string. -/
structure Braced (write : σ → List Char) : Prop where
  opens : ∀ s, ∃ more, write s = '\x7b' :: '\x7b' :: more
  unquoted : ∀ s, '"' ∉ write s ∧ '\\' ∉ write s

theorem Braced.beginsWith (h : Braced write) : Text.BeginsWith '\x7b' write := by
  intro s
  obtain ⟨more, hmore⟩ := h.opens s
  exact ⟨_, hmore⟩

/-! ## Strings -/

variable {done cs rest : List Char} {answer : String × List Char}

theorem isBare_of_stringTail? {c : Char} (hquote : c ≠ '"') (hslash : c ≠ '\\')
    (h : stringTail? done (c :: cs) = some answer) : isBare c = true := by
  rw [stringTail?] at h
  · by_contra hbare
    simp_all [isBare]
  · exact hquote
  · exact fun _ _ _ _ _ hc _ => hslash hc
  · exact fun _ _ hc _ => hslash hc

theorem isBare_of_stringTail?_append {front : List Char} (hquote : '"' ∉ front)
    (hslash : '\\' ∉ front) (h : stringTail? done (front ++ cs) = some answer) :
    ∀ c ∈ front, isBare c = true := by
  induction front generalizing done with
  | nil => simp
  | cons c front ih =>
      rw [List.mem_cons, not_or] at hquote hslash
      have hbare : isBare c = true :=
        isBare_of_stringTail? (Ne.symm hquote.1) (Ne.symm hslash.1) h
      rw [List.cons_append, stringTail?_bare hbare] at h
      exact List.forall_mem_cons.2 ⟨hbare, ih hquote.2 hslash.2 h⟩

theorem brace_not_mem_of_hex4? {a b c d : Char} {n : Nat} (h : hex4? a b c d = some n) :
    '\x7b' ∉ [a, b, c, d] := by
  have hbrace : Text.hexValue? '\x7b' = none := by decide
  intro hmem
  simp only [List.mem_cons, List.not_mem_nil, or_false] at hmem
  rcases hmem with rfl | rfl | rfl | rfl <;> simp [hex4?, hbrace] at h

/-- After a backslash a character is spelled, without a brace. -/
theorem exists_escape (σ : Type) (h : stringTail? done ('\\' :: cs) = some answer) :
    ∃ front e rest, cs = front ++ rest ∧ '\x7b' ∉ front ∧
      stringTail? (e :: done) rest = some answer ∧
      ∀ raw text : Slotted σ, SpellsText raw text →
        SpellsText (letters ('\\' :: front) ++ raw) (.letter e :: text) := by
  rw [stringTail?.eq_def] at h
  split at h
  · cases h
  · next heq => simp at heq
  · next a b c d rest heq =>
      obtain rfl := (List.cons.inj heq).2
      split at h
      · cases h
      · next high hcode =>
          have hdigits := brace_not_mem_of_hex4? hcode
          split_ifs at h with hlow hhigh
          · split at h
            · next e f g h' rest =>
                split at h
                · cases h
                · next low hcode' =>
                    have hdigits' := brace_not_mem_of_hex4? hcode'
                    split_ifs at h with hlow'
                    refine ⟨['u', a, b, c, d, '\\', 'u', e, f, g, h'], _, rest, rfl, ?_, h,
                      fun raw text hspells => .surrogates hcode hhigh hcode' hlow' hspells⟩
                    simp_all
            · cases h
          · refine ⟨['u', a, b, c, d], _, rest, rfl, ?_, h, fun raw text hspells =>
              .code hcode (by simpa using hlow) (by simpa using hhigh) hspells⟩
            simpa using hdigits
  · next c rest _ heq =>
      obtain rfl := (List.cons.inj heq).2
      split at h
      · next e hescape =>
          refine ⟨[c], e, rest, rfl, ?_, h, fun raw text hspells => .escape hescape hspells⟩
          rintro hbrace
          obtain rfl := List.mem_singleton.1 hbrace
          simp [simpleEscape?] at hescape
      · cases h
  · next c rest _ _ _ heq =>
      obtain ⟨rfl, -⟩ := List.cons.inj heq
      simp at h

/-- What is read as a string is spelled by a front of the text. -/
theorem exists_spellsText (hwrite : Braced write) {t : Slotted σ} {s : String}
    (h : stringTail? done (fill write t) = some (s, rest)) :
    ∃ raw text back, t = raw ++ .letter '"' :: back ∧ fill write back = rest ∧
      SpellsText raw text ∧ s = String.ofList (done.reverse ++ fill write text) := by
  induction hlength : t.length using Nat.strongRecOn generalizing t done with
  | ind length ih =>
      subst hlength
      cases t with
      | nil => simp [stringTail?] at h
      | cons sign t =>
          cases sign with
          | slot m =>
              have hbare := isBare_of_stringTail?_append (hwrite.unquoted m).1
                (hwrite.unquoted m).2 h
              rw [Text.fill_slot, stringTail?_append hbare] at h
              obtain ⟨raw, text, back, rfl, hback, hspells, rfl⟩ := ih _ (by simp) h rfl
              refine ⟨.slot m :: raw, .slot m :: text, back, rfl, hback, hspells.slot, ?_⟩
              simp
          | letter c =>
              rw [Text.fill_letter] at h
              by_cases hquote : c = '"'
              · subst hquote
                rw [stringTail?_quote] at h
                obtain ⟨rfl, rfl⟩ := Prod.mk.inj (Option.some.inj h)
                exact ⟨[], [], t, rfl, rfl, .nil, by simp⟩
              by_cases hslash : c = '\\'
              · subst hslash
                obtain ⟨front, e, after, hfront, hbrace, htail, hescape⟩ := exists_escape σ h
                obtain ⟨t', rfl, rfl⟩ := exists_letters_append hwrite.beginsWith hbrace hfront
                have hshorter : t'.length < (Sign.letter '\\' :: (letters front ++ t')).length := by
                  rw [List.length_cons, List.length_append]
                  omega
                obtain ⟨raw, text, back, rfl, hback, hspells, rfl⟩ := ih _ hshorter htail rfl
                refine ⟨letters ('\\' :: front) ++ raw, .letter e :: text, back, by simp, hback,
                  hescape raw text hspells, ?_⟩
                simp
              · have hbare := isBare_of_stringTail? hquote hslash h
                rw [stringTail?_bare hbare] at h
                obtain ⟨raw, text, back, rfl, hback, hspells, rfl⟩ := ih _ (by simp) h rfl
                refine ⟨.letter c :: raw, .letter c :: text, back, rfl, hback,
                  hspells.bare hbare, ?_⟩
                simp

/-! ## Values -/

variable {fuel depth : Nat}

/-- White space is written without slots. -/
theorem exists_blanks (hwrite : Braced write) (t : Slotted σ) :
    ∃ ws back, t = letters ws ++ back ∧ Blanks ws ∧
      fill write back = skipSpace (fill write t) := by
  have hsplit : fill write t = (fill write t).takeWhile isSpace ++ skipSpace (fill write t) :=
    List.takeWhile_append_dropWhile.symm
  have hws : Blanks ((fill write t).takeWhile isSpace) :=
    List.all_eq_true.1 List.all_takeWhile
  have hbrace : '\x7b' ∉ (fill write t).takeWhile isSpace :=
    fun hmem => absurd (hws _ hmem) (by decide)
  obtain ⟨back, hback, hfill⟩ := exists_letters_append hwrite.beginsWith hbrace hsplit
  exact ⟨_, back, hback, hws, hfill⟩

/-- A sign between tokens is written by itself. -/
theorem exists_blanks_letter (hwrite : Braced write) {t : Slotted σ} {c : Char}
    (hc : '\x7b' ≠ c) (h : skipSpace (fill write t) = c :: rest) :
    ∃ ws back, t = letters ws ++ .letter c :: back ∧ Blanks ws ∧ fill write back = rest := by
  obtain ⟨ws, inner, rfl, hws, hinner⟩ := exists_blanks hwrite t
  rw [h] at hinner
  obtain ⟨back, rfl, hback⟩ := exists_letter_cons hwrite.beginsWith hc hinner
  exact ⟨ws, back, rfl, hws, hback⟩

/-- How a value is read. -/
inductive ReadsValue (fuel : Nat) : Nat → List Char → Json → List Char → Prop
  | null {depth : Nat} {cs rest : List Char} (h : cs = ['n', 'u', 'l', 'l'] ++ rest) :
      ReadsValue fuel depth cs .null rest
  | yes {depth : Nat} {cs rest : List Char} (h : cs = ['t', 'r', 'u', 'e'] ++ rest) :
      ReadsValue fuel depth cs (.bool true) rest
  | no {depth : Nat} {cs rest : List Char} (h : cs = ['f', 'a', 'l', 's', 'e'] ++ rest) :
      ReadsValue fuel depth cs (.bool false) rest
  | string {depth : Nat} {cs inner rest : List Char} {s : String} (h : cs = '"' :: inner)
      (hstring : stringTail? [] inner = some (s, rest)) :
      ReadsValue fuel depth cs (.string s) rest
  | emptyArray {depth : Nat} {cs inner rest : List Char} (h : cs = '[' :: inner)
      (hclose : skipSpace inner = ']' :: rest) : ReadsValue fuel (depth + 1) cs (.array []) rest
  | array {depth : Nat} {cs inner rest : List Char} {items : List Json} (h : cs = '[' :: inner)
      (hitems : items? fuel depth [] inner = some (items, rest)) :
      ReadsValue fuel (depth + 1) cs (.array items) rest
  | emptyObject {depth : Nat} {cs inner rest : List Char} (h : cs = '\x7b' :: inner)
      (hclose : skipSpace inner = '\x7d' :: rest) :
      ReadsValue fuel (depth + 1) cs (.object []) rest
  | object {depth : Nat} {cs inner rest : List Char} {members : List (String × Json)}
      (h : cs = '\x7b' :: inner)
      (hmembers : members? fuel depth [] inner = some (members, rest)) :
      ReadsValue fuel (depth + 1) cs (.object members) rest
  | number {depth : Nat} {cs rest : List Char} {n : Number} (h : number? cs = some (n, rest)) :
      ReadsValue fuel depth cs (.number n) rest

theorem readsValue_of_value? {doc : Json} (h : value? (fuel + 1) depth cs = some (doc, rest)) :
    ReadsValue fuel depth (skipSpace cs) doc rest := by
  rw [value?] at h
  split at h
  · next heq =>
      obtain ⟨rfl, rfl⟩ := Prod.mk.inj (Option.some.inj h)
      exact .null heq
  · next heq =>
      obtain ⟨rfl, rfl⟩ := Prod.mk.inj (Option.some.inj h)
      exact .yes heq
  · next heq =>
      obtain ⟨rfl, rfl⟩ := Prod.mk.inj (Option.some.inj h)
      exact .no heq
  · next heq =>
      obtain ⟨⟨s, after⟩, hstring, hdoc⟩ := Option.map_eq_some_iff.1 h
      obtain ⟨rfl, rfl⟩ := Prod.mk.inj hdoc
      exact .string heq hstring
  · next heq =>
      split at h
      · cases h
      · split at h
        · next hclose =>
            obtain ⟨rfl, rfl⟩ := Prod.mk.inj (Option.some.inj h)
            exact .emptyArray heq hclose
        · obtain ⟨⟨items, after⟩, hitems, hdoc⟩ := Option.map_eq_some_iff.1 h
          obtain ⟨rfl, rfl⟩ := Prod.mk.inj hdoc
          exact .array heq hitems
  · next heq =>
      split at h
      · cases h
      · split at h
        · next hclose =>
            obtain ⟨rfl, rfl⟩ := Prod.mk.inj (Option.some.inj h)
            exact .emptyObject heq hclose
        · obtain ⟨⟨members, after⟩, hmembers, hdoc⟩ := Option.map_eq_some_iff.1 h
          obtain ⟨rfl, rfl⟩ := Prod.mk.inj hdoc
          exact .object heq hmembers
  · obtain ⟨⟨n, after⟩, hnumber, hdoc⟩ := Option.map_eq_some_iff.1 h
    obtain ⟨rfl, rfl⟩ := Prod.mk.inj hdoc
    exact .number hnumber

/-- Every value that is read with some fuel is spelled by a front of the text. -/
def ValuesSpelled (write : σ → List Char) (fuel : Nat) : Prop :=
  ∀ depth t doc rest, value? fuel depth (fill write t) = some (doc, rest) →
    ∃ front form back, t = front ++ back ∧ fill write back = rest ∧
      Spells depth front (.value form) ∧ form.fill write = doc

def ItemsSpelled (write : σ → List Char) (fuel : Nat) : Prop :=
  ∀ depth done t docs rest, items? fuel depth done (fill write t) = some (docs, rest) →
    ∃ front forms back, t = front ++ .letter ']' :: back ∧ fill write back = rest ∧
      Spells depth front (.items forms) ∧ docs = done.reverse ++ Form.fillItems write forms

def MembersSpelled (write : σ → List Char) (fuel : Nat) : Prop :=
  ∀ depth done t members rest, members? fuel depth done (fill write t) = some (members, rest) →
    ∃ front forms back, t = front ++ .letter '\x7d' :: back ∧ fill write back = rest ∧
      Spells depth front (.members forms) ∧
      members = done.reverse ++ Form.fillMembers write forms

theorem skipSpace_brace (cs : List Char) : skipSpace ('\x7b' :: cs) = '\x7b' :: cs :=
  skipSpace_cons (by decide) cs

theorem members?_brace (done : List (String × Json)) :
    members? fuel depth done ('\x7b' :: cs) = none := by
  cases fuel with
  | zero => rfl
  | succ fuel => simp [members?, skipSpace_brace]

/-- One brace is written by itself, two may be a slot. -/
theorem exists_brace_cons (hwrite : Braced write) {t : Slotted σ}
    (h : fill write t = '\x7b' :: rest) :
    (∃ back, t = .letter '\x7b' :: back ∧ fill write back = rest) ∨
      ∃ more, rest = '\x7b' :: more := by
  cases t with
  | nil => simp at h
  | cons sign t =>
      cases sign with
      | letter c =>
          obtain ⟨rfl, rfl⟩ : c = '\x7b' ∧ fill write t = rest := by simpa using h
          exact Or.inl ⟨t, rfl, rfl⟩
      | slot m =>
          obtain ⟨more, hmore⟩ := hwrite.opens m
          rw [Text.fill_slot, hmore] at h
          exact Or.inr ⟨_, (List.cons.inj h).2.symm⟩

theorem valuesSpelled_succ (hwrite : Braced write) (hitems : ItemsSpelled write fuel)
    (hmembers : MembersSpelled write fuel) : ValuesSpelled write (fuel + 1) := by
  intro depth t doc rest h
  obtain ⟨ws, t, rfl, hws, ht⟩ := exists_blanks hwrite t
  suffices hvalue : ∃ front form back, t = front ++ back ∧ fill write back = rest ∧
      Spells depth front (.value form) ∧ form.fill write = doc by
    obtain ⟨front, form, back, rfl, hback, hspells, hdoc⟩ := hvalue
    exact ⟨letters ws ++ front, form, back, by simp, hback, .blanks hws hspells, hdoc⟩
  have hreads := readsValue_of_value? h
  rw [← ht] at hreads
  cases hreads with
  | null heq =>
      obtain ⟨back, rfl, hback⟩ := exists_letters_append hwrite.beginsWith (by decide) heq
      exact ⟨_, .null, back, rfl, hback, .null, rfl⟩
  | yes heq =>
      obtain ⟨back, rfl, hback⟩ := exists_letters_append hwrite.beginsWith (by decide) heq
      exact ⟨_, .bool true, back, rfl, hback, .yes, rfl⟩
  | no heq =>
      obtain ⟨back, rfl, hback⟩ := exists_letters_append hwrite.beginsWith (by decide) heq
      exact ⟨_, .bool false, back, rfl, hback, .no, rfl⟩
  | string heq hstring =>
      obtain ⟨inner, rfl, rfl⟩ := exists_letter_cons hwrite.beginsWith (by decide) heq
      obtain ⟨raw, text, back, rfl, hback, hspells, rfl⟩ := exists_spellsText hwrite hstring
      exact ⟨_, .string text, back, by simp, hback, .string hspells, by simp [Form.fill]⟩
  | emptyArray heq hclose =>
      obtain ⟨inner, rfl, rfl⟩ := exists_letter_cons hwrite.beginsWith (by decide) heq
      obtain ⟨ws', back, rfl, hws', hback⟩ := exists_blanks_letter hwrite (by decide) hclose
      exact ⟨_, .array [], back, by simp, hback, .emptyArray hws', rfl⟩
  | array heq hread =>
      obtain ⟨inner, rfl, rfl⟩ := exists_letter_cons hwrite.beginsWith (by decide) heq
      obtain ⟨front, forms, back, rfl, hback, hspells, rfl⟩ := hitems _ _ _ _ _ hread
      exact ⟨_, .array forms, back, by simp, hback, .array hspells, by simp [Form.fill]⟩
  | emptyObject heq hclose =>
      rcases exists_brace_cons hwrite heq with ⟨inner, rfl, rfl⟩ | ⟨more, rfl⟩
      · obtain ⟨ws', back, rfl, hws', hback⟩ := exists_blanks_letter hwrite (by decide) hclose
        exact ⟨_, .object [], back, by simp, hback, .emptyObject hws', rfl⟩
      · simp [skipSpace_brace] at hclose
  | object heq hread =>
      rcases exists_brace_cons hwrite heq with ⟨inner, rfl, rfl⟩ | ⟨more, rfl⟩
      · obtain ⟨front, forms, back, rfl, hback, hspells, rfl⟩ := hmembers _ _ _ _ _ hread
        exact ⟨_, .object forms, back, by simp, hback, .object hspells, by simp [Form.fill]⟩
      · simp [members?_brace] at hread
  | @number _ _ _ n hnumber =>
      obtain ⟨front, hfront, hsigns, hread⟩ := readsFront_number? _ _ _ hnumber
      have hbrace : '\x7b' ∉ front := fun hmem => absurd (hsigns _ hmem) (by decide)
      obtain ⟨back, rfl, hback⟩ := exists_letters_append hwrite.beginsWith hbrace hfront
      have hself : number? front = some (n, []) := by
        simpa using hread [] endsNumber_nil
      exact ⟨_, .number n, back, rfl, hback, .number hself, rfl⟩

theorem exists_item_of_items? {done : List Json} {answer : List Json × List Char}
    (h : items? (fuel + 1) depth done cs = some answer) :
    ∃ item more, value? fuel depth cs = some (item, more) ∧
      afterItem? fuel depth (item :: done) (skipSpace more) = some answer := by
  rw [items?] at h
  split at h
  · cases h
  · next item more hitem => exact ⟨item, more, hitem, h⟩

theorem afterItem?_cases {done docs : List Json}
    (h : afterItem? fuel depth done cs = some (docs, rest)) :
    (∃ inner, cs = ',' :: inner ∧ items? fuel depth done inner = some (docs, rest)) ∨
      cs = ']' :: rest ∧ docs = done.reverse := by
  unfold afterItem? at h
  split at h
  · exact Or.inl ⟨_, rfl, h⟩
  · obtain ⟨rfl, rfl⟩ := Prod.mk.inj (Option.some.inj h)
    exact Or.inr ⟨rfl, rfl⟩
  · cases h

theorem itemsSpelled_succ (hwrite : Braced write) (hvalues : ValuesSpelled write fuel)
    (hitems : ItemsSpelled write fuel) : ItemsSpelled write (fuel + 1) := by
  intro depth done t docs rest h
  obtain ⟨item, more, hitem, hafter⟩ := exists_item_of_items? h
  obtain ⟨front, form, back, rfl, rfl, hform, rfl⟩ := hvalues _ _ _ _ hitem
  rcases afterItem?_cases hafter with ⟨inner, hcomma, hmore⟩ | ⟨hclose, rfl⟩
  · obtain ⟨ws, after, rfl, hws, rfl⟩ := exists_blanks_letter hwrite (by decide) hcomma
    obtain ⟨front', forms, back, rfl, hback, hforms, rfl⟩ := hitems _ _ _ _ _ hmore
    exact ⟨_, form :: forms, back, by simp, hback, .items hform hws hforms,
      by simp [Form.fillItems]⟩
  · obtain ⟨ws, after, rfl, hws, rfl⟩ := exists_blanks_letter hwrite (by decide) hclose
    exact ⟨_, [form], after, by simp, rfl, .lastItem hform hws, by simp [Form.fillItems]⟩

theorem exists_member_of_members? {done : List (String × Json)}
    {answer : List (String × Json) × List Char}
    (h : members? (fuel + 1) depth done cs = some answer) :
    ∃ name value inner colon after more, skipSpace cs = '"' :: inner ∧
      stringTail? [] inner = some (name, colon) ∧ skipSpace colon = ':' :: after ∧
      value? fuel depth after = some (value, more) ∧
      afterMember? fuel depth ((name, value) :: done) (skipSpace more) = some answer := by
  rw [members?] at h
  split at h
  · next inner hquote =>
      split at h
      · cases h
      · next name colon hname =>
          split at h
          · next after hcolon =>
              split at h
              · cases h
              · next value more hvalue =>
                  exact ⟨name, value, inner, colon, after, more, hquote, hname, hcolon, hvalue, h⟩
          · cases h
  · cases h

theorem afterMember?_cases {done members : List (String × Json)}
    (h : afterMember? fuel depth done cs = some (members, rest)) :
    (∃ inner, cs = ',' :: inner ∧ members? fuel depth done inner = some (members, rest)) ∨
      cs = '\x7d' :: rest ∧ members = done.reverse := by
  unfold afterMember? at h
  split at h
  · exact Or.inl ⟨_, rfl, h⟩
  · obtain ⟨rfl, rfl⟩ := Prod.mk.inj (Option.some.inj h)
    exact Or.inr ⟨rfl, rfl⟩
  · cases h

theorem membersSpelled_succ (hwrite : Braced write) (hvalues : ValuesSpelled write fuel)
    (hmembers : MembersSpelled write fuel) : MembersSpelled write (fuel + 1) := by
  intro depth done t members rest h
  obtain ⟨name, value, inner, colon, after, more, hquote, hname, hcolon, hvalue, hafter⟩ :=
    exists_member_of_members? h
  obtain ⟨ws, t, rfl, hws, rfl⟩ := exists_blanks_letter hwrite (by decide) hquote
  obtain ⟨raw, text, t, rfl, rfl, hspells, rfl⟩ := exists_spellsText hwrite hname
  obtain ⟨ws', t, rfl, hws', rfl⟩ := exists_blanks_letter hwrite (by decide) hcolon
  obtain ⟨front, form, t, rfl, rfl, hform, rfl⟩ := hvalues _ _ _ _ hvalue
  have hmember := Spells.member hws hspells hws' hform
  rcases afterMember?_cases hafter with ⟨inner, hcomma, hmore⟩ | ⟨hclose, rfl⟩
  · obtain ⟨ws'', t, rfl, hws'', rfl⟩ := exists_blanks_letter hwrite (by decide) hcomma
    obtain ⟨front', forms, back, rfl, hback, hforms, rfl⟩ := hmembers _ _ _ _ _ hmore
    exact ⟨_, (text, form) :: forms, back, by simp, hback, .members hmember hws'' hforms,
      by simp [Form.fillMembers]⟩
  · obtain ⟨ws'', back, rfl, hws'', rfl⟩ := exists_blanks_letter hwrite (by decide) hclose
    exact ⟨_, [(text, form)], back, by simp, rfl, .lastMember hmember hws'',
      by simp [Form.fillMembers]⟩

theorem allSpelled (hwrite : Braced write) (fuel : Nat) :
    ValuesSpelled write fuel ∧ ItemsSpelled write fuel ∧ MembersSpelled write fuel := by
  induction fuel with
  | zero =>
      refine ⟨fun _ _ _ _ h => ?_, fun _ _ _ _ _ h => ?_, fun _ _ _ _ _ h => ?_⟩
      · simp [value?] at h
      · simp [items?] at h
      · simp [members?] at h
  | succ fuel ih =>
      obtain ⟨hvalues, hitems, hmembers⟩ := ih
      exact ⟨valuesSpelled_succ hwrite hitems hmembers, itemsSpelled_succ hwrite hvalues hitems,
        membersSpelled_succ hwrite hvalues hmembers⟩

/-- A document with slots, and nothing but white space around it. -/
def SpellsDocument (t : Slotted σ) (form : Form σ) : Prop :=
  ∃ front ws, t = front ++ letters ws ∧ Blanks ws ∧ Spells maxDepth front (.value form)

/-- A text with slots that is a document as it is written spells one. -/
theorem exists_spellsDocument (hwrite : Braced write) {t : Slotted σ} {doc : Json}
    (h : written? (fill write t) = some doc) :
    ∃ form, SpellsDocument t form ∧ form.fill write = doc := by
  unfold written? at h
  split at h
  · next doc' rest hvalue =>
      obtain ⟨front, form, back, rfl, rfl, hspells, rfl⟩ :=
        (allSpelled hwrite _).1 _ _ _ _ hvalue
      split_ifs at h with hrest
      obtain rfl := Option.some.inj h
      obtain ⟨ws, after, rfl, hws, hafter⟩ := exists_blanks hwrite back
      rw [List.isEmpty_iff.1 hrest] at hafter
      obtain rfl := Text.eq_nil_of_fill_eq_nil hwrite.beginsWith.nonemptyFill hafter
      exact ⟨form, ⟨front, ws, by simp, hws, hspells⟩, rfl⟩
  · cases h

/-! ## Forms that are filled alike -/

theorem fillsStrings_letter (σ : Type) : FillsStrings fun _ : σ => ['a'] := by
  intro s c hc
  rw [List.mem_singleton.1 hc]
  decide

theorem eq_of_fill_eq {text other : Slotted σ}
    (h : ∀ value : σ → List Char, FillsStrings value → fill value text = fill value other) :
    text = other :=
  @Text.eq_of_fill_eq _ (fun c => isBare c = true) 'a' 'b' (by decide) (by decide) (by decide)
    text other h

theorem eq_of_string_fill_eq {text other : Slotted σ}
    (h : ∀ value : σ → List Char, FillsStrings value →
      String.ofList (fill value text) = String.ofList (fill value other)) : text = other :=
  eq_of_fill_eq fun value hvalue => by simpa using congrArg String.toList (h value hvalue)

mutual

theorem Form.eq_of_fill_eq {form other : Form σ}
    (h : ∀ value, FillsStrings value → form.fill value = other.fill value) : form = other := by
  have hone := h _ (fillsStrings_letter σ)
  cases form with
  | null => cases other <;> first | rfl | simp [Form.fill] at hone
  | bool b =>
      cases other with
      | bool c => simpa [Form.fill] using hone
      | _ => simp [Form.fill] at hone
  | number n =>
      cases other with
      | number m => simpa [Form.fill] using hone
      | _ => simp [Form.fill] at hone
  | string text =>
      cases other with
      | string text' =>
          rw [eq_of_string_fill_eq fun value hvalue => Json.string.inj (h value hvalue)]
      | _ => simp [Form.fill] at hone
  | array items =>
      cases other with
      | array items' =>
          rw [Form.eq_of_fillItems_eq fun value hvalue => Json.array.inj (h value hvalue)]
      | _ => simp [Form.fill] at hone
  | object members =>
      cases other with
      | object members' =>
          rw [Form.eq_of_fillMembers_eq fun value hvalue => Json.object.inj (h value hvalue)]
      | _ => simp [Form.fill] at hone

theorem Form.eq_of_fillItems_eq {items other : List (Form σ)}
    (h : ∀ value, FillsStrings value →
      Form.fillItems value items = Form.fillItems value other) : items = other := by
  have hone := h _ (fillsStrings_letter σ)
  cases items with
  | nil =>
      cases other with
      | nil => rfl
      | cons item' rest' => simp [Form.fillItems] at hone
  | cons item rest =>
      cases other with
      | nil => simp [Form.fillItems] at hone
      | cons item' rest' =>
          rw [Form.eq_of_fill_eq fun value hvalue => (List.cons.inj (h value hvalue)).1,
            Form.eq_of_fillItems_eq fun value hvalue => (List.cons.inj (h value hvalue)).2]

theorem Form.eq_of_fillMembers_eq {members other : List (Slotted σ × Form σ)}
    (h : ∀ value, FillsStrings value →
      Form.fillMembers value members = Form.fillMembers value other) : members = other := by
  have hone := h _ (fillsStrings_letter σ)
  cases members with
  | nil =>
      cases other with
      | nil => rfl
      | cons member' rest' =>
          obtain ⟨name', form'⟩ := member'
          simp [Form.fillMembers] at hone
  | cons member rest =>
      obtain ⟨name, form⟩ := member
      cases other with
      | nil => simp [Form.fillMembers] at hone
      | cons member' rest' =>
          obtain ⟨name', form'⟩ := member'
          have hhead := fun value hvalue => Prod.mk.inj (List.cons.inj (h value hvalue)).1
          rw [eq_of_string_fill_eq fun value hvalue => (hhead value hvalue).1,
            Form.eq_of_fill_eq fun value hvalue => (hhead value hvalue).2,
            Form.eq_of_fillMembers_eq fun value hvalue => (List.cons.inj (h value hvalue)).2]

end

/-! ## Documents in front of other texts -/

/-- An object ends with its brace, whatever follows. -/
theorem Spells.value?_object {value : σ → List Char} (hvalue : FillsStrings value) {depth : Nat}
    {t : Slotted σ} {members : List (Slotted σ × Form σ)}
    (h : Spells depth t (.value (.object members))) (fuel : Nat) (rest : List Char)
    (hfuel : 2 * (fill value t).length ≤ fuel + 1) :
    value? fuel depth (fill value t ++ rest) =
      some (.object (Form.fillMembers value members), rest) := by
  generalize hpart : Part.value (Form.object members) = part at h
  induction h generalizing fuel with
  | @blanks depth ws t form hws _ ih =>
      rw [Text.fill_append, Text.fill_letters, List.append_assoc,
        value?_congr (skipSpace_append hws _)]
      refine ih fuel ?_ hpart
      simp only [Text.fill_append, List.length_append] at hfuel
      omega
  | @emptyObject depth ws hws =>
      cases hpart
      obtain ⟨fuel, rfl⟩ := exists_fuel hfuel (by simp)
      have hclose : skipSpace (ws ++ '\x7d' :: rest) = '\x7d' :: rest :=
        skipSpace_blanks hws (by decide) rest
      simp [Form.fillMembers, value?_brace, hclose]
  | object hmembers =>
      cases hpart
      obtain ⟨fuel, rfl⟩ := exists_fuel hfuel (by simp)
      have hread := hmembers.isRead hvalue fuel [] rest (by simp at hfuel; omega)
      simpa using Json.value?_object hread
  | _ => cases hpart

theorem blanks_of_written?_append {cs more : List Char} {members : List (String × Json)}
    (h : written? cs = some (.object members)) (hmore : (written? (cs ++ more)).isSome) :
    Blanks more := by
  have hwrite : Braced (Empty.elim : Empty → List Char) := ⟨fun s => s.elim, fun s => s.elim⟩
  have hvalue : FillsStrings (Empty.elim : Empty → List Char) := fun s => s.elim
  rw [← Text.fill_letters (Empty.elim : Empty → List Char) cs] at h
  obtain ⟨form, ⟨front, ws, htext, -, hspells⟩, hform⟩ := exists_spellsDocument hwrite h
  cases form with
  | object forms =>
      have hcs : cs = fill Empty.elim front ++ ws := by
        simpa using congrArg (fill (Empty.elim : Empty → List Char)) htext
      have hread := hspells.value?_object hvalue (2 * (cs ++ more).length + 2) (ws ++ more)
        (by simp [hcs]; omega)
      rw [← List.append_assoc, ← hcs] at hread
      rw [written?, hread] at hmore
      dsimp only at hmore
      split_ifs at hmore with hspace
      · have hblank : Blanks (ws ++ more) :=
          List.dropWhile_eq_nil_iff.1 (List.isEmpty_iff.1 hspace)
        exact fun c hc => hblank c (List.mem_append_right ws hc)
      · cases hmore
  | _ => cases hform

/-- A document that begins with an object has nothing but white space behind it. -/
theorem blanks_of_parse?_append {cs more : List Char} {members : List (String × Json)}
    (h : parse? cs = some (.object members)) (hmore : (parse? (cs ++ more)).isSome) :
    Blanks more := by
  obtain ⟨doc, hwritten, hmerged⟩ := Option.map_eq_some_iff.1 h
  rw [parse?, Option.isSome_map] at hmore
  cases doc with
  | object written => exact blanks_of_written?_append hwritten hmore
  | _ => cases hmerged

end BookRules.Json
