import BookRules.Request.Search
import BookRules.Proofs.Text.Cuttings
import BookRules.Proofs.Text.Occurrences
import BookRules.Proofs.Text.Slotted
import BookRules.Proofs.Text.Trimming
import Mathlib.Data.List.Chain
import Mathlib.Tactic.SplitIfs

/-!
# Placeholders

The address of a search is a text whose slots are placeholders.  The two passes that fill
them find the placeholders of their own kind and nothing else: a keyword is encoded before it
is put in, and no sign of an encoded keyword can be part of a placeholder.
-/

namespace BookRules.Request

open Text (Sign Slotted fill replaceSpansFrom replaceSpans Recogniser)

/-- What a placeholder stands for. -/
inductive Wanted
  | keyword
  | page
  deriving DecidableEq

def Wanted.long : Wanted → List Char
  | .keyword => "searchKey".toList
  | .page => "searchPage".toList

def Wanted.short : Wanted → List Char
  | .keyword => "key".toList
  | .page => "page".toList

/-- A name in two pairs of braces, with white space around it. -/
structure Placeholder where
  wanted : Wanted
  before : List Char
  name : List Char
  after : List Char
  blank_before : ∀ c ∈ before, Text.isBlank c = true
  name_eq : name = wanted.long ∨ name = wanted.short
  blank_after : ∀ c ∈ after, Text.isBlank c = true

/-- A placeholder as it is written. -/
def Placeholder.text (p : Placeholder) : List Char :=
  '\x7b' :: '\x7b' :: (p.before ++ (p.name ++ (p.after ++ ['\x7d', '\x7d'])))

/-- What a placeholder stands for on a page of the results for a keyword. -/
def Placeholder.value (keyword : String) (page : Nat) (p : Placeholder) : List Char :=
  match p.wanted with
  | .keyword => Url.formEncode keyword.toList
  | .page => Decimal.digitsOf page

/-! ## Reading placeholders -/

variable {p : Placeholder} {rest : List Char}

theorem trimStart_name (p : Placeholder) (rest : List Char) :
    Text.trimStart (p.before ++ (p.name ++ rest)) = p.name ++ rest := by
  rw [Text.trimStart_blank_append p.blank_before]
  obtain ⟨wanted, before, name, after, hbefore, hname, hafter⟩ := p
  cases wanted <;> rcases hname with rfl | rfl <;> rfl

theorem trimStart_braces (p : Placeholder) (rest : List Char) :
    Text.trimStart (p.after ++ '\x7d' :: rest) = '\x7d' :: rest := by
  rw [Text.trimStart_blank_append p.blank_after]
  rfl

theorem stripFront?_name (p : Placeholder) (rest : List Char) :
    (Text.stripFront? p.wanted.long (p.name ++ rest)).or
      (Text.stripFront? p.wanted.short (p.name ++ rest)) = some rest := by
  obtain ⟨wanted, before, name, after, hbefore, hname, hafter⟩ := p
  cases wanted <;> rcases hname with rfl | rfl <;> rfl

theorem stripFront?_other {wanted : Wanted} (hp : p.wanted ≠ wanted) (rest : List Char) :
    (Text.stripFront? wanted.long (p.name ++ rest)).or
      (Text.stripFront? wanted.short (p.name ++ rest)) = none := by
  obtain ⟨own, before, name, after, hbefore, hname, hafter⟩ := p
  cases own <;> cases wanted <;> first
    | exact absurd rfl hp
    | rcases hname with rfl | rfl <;> rfl

theorem placeholder?_text {wanted : Wanted} (hp : p.wanted = wanted) (rest : List Char) :
    placeholder? wanted.long wanted.short (p.text ++ rest) = some rest := by
  subst hp
  have hbraces : Text.stripFront? ['\x7d', '\x7d'] ('\x7d' :: '\x7d' :: rest) = some rest := rfl
  simp only [placeholder?, Placeholder.text, List.cons_append, List.append_assoc,
    trimStart_name, stripFront?_name, Option.bind_some, List.nil_append, trimStart_braces, hbraces]

theorem placeholder?_other {wanted : Wanted} (hp : p.wanted ≠ wanted) (rest : List Char) :
    placeholder? wanted.long wanted.short (p.text ++ rest) = none := by
  simp only [placeholder?, Placeholder.text, List.cons_append, List.append_assoc,
    trimStart_name, stripFront?_other hp, Option.bind_none]

/-- Only two braces begin a placeholder. -/
theorem placeholder?_of_not_braces {long short cs : List Char}
    (h : ∀ more, cs ≠ '\x7b' :: '\x7b' :: more) : placeholder? long short cs = none := by
  unfold placeholder?
  split
  · next more => exact absurd rfl (h more)
  · rfl

theorem brace_not_mem_inside (p : Placeholder) :
    '\x7b' ∉ p.before ++ (p.name ++ (p.after ++ ['\x7d', '\x7d'])) := by
  have hblank : ∀ cs : List Char, (∀ c ∈ cs, Text.isBlank c = true) → '\x7b' ∉ cs :=
    fun cs hcs hmem => absurd (hcs _ hmem) (by decide)
  have hname : '\x7b' ∉ p.name := by
    rcases p.name_eq with hname | hname <;> rw [hname] <;> cases p.wanted <;> decide
  simp [hblank _ p.blank_before, hname, hblank _ p.blank_after]

/-- Inside a placeholder no two braces stand side by side. -/
theorem eq_nil_of_braces {front back more : List Char} (htext : p.text = front ++ back)
    (hback : back ≠ []) (hbraces : back ++ rest = '\x7b' :: '\x7b' :: more) : front = [] := by
  have hinside := brace_not_mem_inside p
  obtain ⟨c, back, rfl⟩ := List.exists_cons_of_ne_nil hback
  obtain ⟨rfl, hmore⟩ := List.cons.inj hbraces
  cases front with
  | nil => rfl
  | cons d front =>
      have hrest := (List.cons.inj htext).2
      cases front with
      | nil =>
          -- the second brace: what follows it is no brace
          have hlast := (List.cons.inj hrest).2
          cases back with
          | nil => simp at hlast
          | cons e back =>
              obtain ⟨rfl, -⟩ := List.cons.inj hmore
              rw [hlast] at hinside
              simp at hinside
      | cons e front =>
          rw [(List.cons.inj hrest).2] at hinside
          simp at hinside

/-! ## What is put in -/

/-- A sign of a text that is encoded for a form. -/
def isFormSign (c : Char) : Bool :=
  c.isAlphanum || ['*', '-', '.', '_', '+', '%'].contains c

theorem isFormSign_hexDigit : ∀ n < 16, isFormSign (Text.upperHexDigit n) = true := by
  decide

theorem isFormSign_of_mem_bytes {c d : Char}
    (h : d ∈ (Url.bytesOf c).flatMap Url.percentByte) : isFormSign d = true := by
  obtain ⟨b, hb, hd⟩ := List.mem_flatMap.1 h
  obtain ⟨byte, -, rfl⟩ := List.mem_map.1 hb
  have hbyte : byte.toNat < 256 := byte.toNat_lt
  simp only [Url.percentByte, List.mem_cons, List.not_mem_nil, or_false] at hd
  rcases hd with rfl | rfl | rfl
  · decide
  · exact isFormSign_hexDigit _ (by omega)
  · exact isFormSign_hexDigit _ (by omega)

theorem isFormSign_of_mem_formEncode {c : Char} {text : List Char}
    (h : c ∈ Url.formEncode text) : isFormSign c = true := by
  obtain ⟨d, -, hd⟩ := List.mem_flatMap.1 h
  split_ifs at hd with hspace
  · rw [List.mem_singleton.1 hd]
    decide
  · unfold Url.percentChar at hd
    split_ifs at hd with hkeep
    · rw [List.mem_singleton.1 hd]
      simp only [Bool.and_eq_true, Bool.or_eq_true, decide_eq_true_eq, beq_iff_eq] at hkeep
      rcases hkeep.2 with (((h | rfl) | rfl) | rfl) | rfl
      · simp [isFormSign, h]
      all_goals decide
    · exact isFormSign_of_mem_bytes hd

theorem percentChar_ne_nil (keep : Char → Bool) (c : Char) : Url.percentChar keep c ≠ [] := by
  unfold Url.percentChar
  split_ifs
  · simp
  · have hbytes : Url.bytesOf c ≠ [] := by simp [Url.bytesOf]
    obtain ⟨b, rest, hrest⟩ := List.exists_cons_of_ne_nil hbytes
    simp [hrest, Url.percentByte]

theorem formEncode_ne_nil {text : List Char} (h : text ≠ []) : Url.formEncode text ≠ [] := by
  obtain ⟨c, rest, rfl⟩ := List.exists_cons_of_ne_nil h
  rw [Url.formEncode, List.flatMap_cons]
  apply List.append_ne_nil_of_left_ne_nil
  split_ifs
  · simp
  · exact percentChar_ne_nil _ c

theorem isFormSign_of_mem_value {keyword : String} {page : Nat} {p : Placeholder} {c : Char}
    (h : c ∈ p.value keyword page) : isFormSign c = true := by
  unfold Placeholder.value at h
  split at h
  · exact isFormSign_of_mem_formEncode h
  · have hdigit : c.isDigit = true := Nat.isDigit_of_mem_toDigits (by decide) (by decide) h
    simp [isFormSign, Char.isAlphanum, hdigit]

theorem value_ne_nil {keyword : String} (hkeyword : keyword ≠ "") (page : Nat)
    (p : Placeholder) : p.value keyword page ≠ [] := by
  unfold Placeholder.value
  split
  · exact formEncode_ne_nil (by simpa using hkeyword)
  · exact Nat.toDigits_ne_nil

/-! ## One pass -/

/-- Texts that a recogniser passes over, whatever comes after them. -/
def PassedOver (recognise : Recogniser) (cs : List Char) : Prop :=
  ∀ front back, cs = front ++ back → back ≠ [] → ∀ rest, recognise (back ++ rest) = none

theorem replaceSpansFrom_passedOver {recognise : Recogniser} {cs : List Char}
    (h : PassedOver recognise cs) (rest : List Char) :
    replaceSpansFrom recognise 0 (cs ++ rest) = cs ++ replaceSpansFrom recognise 0 rest := by
  induction cs with
  | nil => rfl
  | cons c cs ih =>
      have hhere : recognise (c :: (cs ++ rest)) = none := h [] (c :: cs) rfl (by simp) rest
      have hlater : PassedOver recognise cs := by
        rintro front back rfl hback
        exact h (c :: front) back rfl hback
      rw [List.cons_append, replaceSpansFrom, hhere]
      dsimp only
      rw [ih hlater, List.cons_append]

theorem replaceSpansFrom_recognised {recognise : Recogniser} {cs out : List Char} (hne : cs ≠ [])
    (h : recognise (cs ++ rest) = some (out, rest)) :
    replaceSpansFrom recognise 0 (cs ++ rest) = out ++ replaceSpansFrom recognise 0 rest := by
  cases cs with
  | nil => exact absurd rfl hne
  | cons c cs =>
      have hsuffix : rest <:+ cs ++ rest := List.suffix_append cs rest
      rw [List.cons_append] at h ⊢
      rw [replaceSpansFrom, h]
      dsimp only
      rw [Text.replaceSpansFrom_skip, Text.drop_eq_of_isSuffix hsuffix]

/-- No two braces stand side by side outside placeholders. -/
def Apart (a b : Sign Placeholder) : Prop :=
  a = .letter '\x7b' → ∃ c, b = .letter c ∧ c ≠ '\x7b'

instance : DecidableRel Apart := fun a b =>
  match a, b with
  | .letter c, .letter d => decidable_of_iff (c = '\x7b' → d ≠ '\x7b') (by simp [Apart])
  | .letter c, .slot _ => decidable_of_iff (c ≠ '\x7b') (by simp [Apart])
  | .slot _, _ => isTrue (by simp [Apart])

/-- A pass replaces the slots that it recognises and passes over everything else. -/
theorem replaceSpans_fill {recognise : Recogniser} {write write' : Placeholder → List Char}
    {t : Slotted Placeholder} (hbraces : t.IsChain Apart)
    (hopens : ∀ cs, (∀ more, cs ≠ '\x7b' :: '\x7b' :: more) → recognise cs = none)
    (hslots : ∀ p, (write p ≠ [] ∧ ∀ rest, recognise (write p ++ rest) = some (write' p, rest)) ∨
      write' p = write p ∧ PassedOver recognise (write p)) :
    replaceSpans recognise (fill write t) = fill write' t := by
  unfold replaceSpans
  induction t with
  | nil => rfl
  | cons sign t ih =>
      have htail := ih hbraces.tail
      cases sign with
      | letter c =>
          have hnone : recognise (c :: fill write t) = none := by
            apply hopens
            intro more heq
            obtain ⟨rfl, hmore⟩ := List.cons.inj heq
            cases t with
            | nil => simp at hmore
            | cons next t =>
                obtain ⟨d, rfl, hd⟩ := (List.isChain_cons_cons.1 hbraces).1 rfl
                exact hd (List.cons.inj hmore).1
          rw [Text.fill_letter, replaceSpansFrom, hnone]
          dsimp only
          rw [htail, Text.fill_letter]
      | slot p =>
          rw [Text.fill_slot, Text.fill_slot]
          rcases hslots p with ⟨hne, hread⟩ | ⟨hsame, hpassed⟩
          · rw [replaceSpansFrom_recognised hne (hread _), htail]
          · rw [replaceSpansFrom_passedOver hpassed, htail, hsame]

/-! ## Both passes -/

theorem text_ne_nil (p : Placeholder) : p.text ≠ [] := by
  simp [Placeholder.text]

theorem passedOver_of_not_braces {long short value cs : List Char}
    (h : ∀ front back, cs = front ++ back → back ≠ [] →
      ∀ rest more, back ++ rest ≠ '\x7b' :: '\x7b' :: more) :
    PassedOver (fun cs => (placeholder? long short cs).map fun after => (value, after)) cs := by
  intro front back hcs hback rest
  dsimp only
  rw [placeholder?_of_not_braces (h front back hcs hback rest), Option.map_none]

theorem passedOver_of_not_mem {long short value cs : List Char} (h : '\x7b' ∉ cs) :
    PassedOver (fun cs => (placeholder? long short cs).map fun after => (value, after)) cs := by
  refine passedOver_of_not_braces fun front back hcs hback rest more heq => ?_
  obtain ⟨c, back, rfl⟩ := List.exists_cons_of_ne_nil hback
  obtain ⟨rfl, -⟩ := List.cons.inj heq
  simp [hcs] at h

theorem passedOver_text {wanted : Wanted} {value : List Char} {p : Placeholder}
    (hp : p.wanted ≠ wanted) :
    PassedOver (fun cs => (placeholder? wanted.long wanted.short cs).map
      fun after => (value, after)) p.text := by
  intro front back hcs hback rest
  cases front with
  | nil =>
      obtain rfl : p.text = back := hcs
      simp [placeholder?_other hp]
  | cons c front =>
      dsimp only
      rw [placeholder?_of_not_braces, Option.map_none]
      intro more hbraces
      cases eq_nil_of_braces hcs hback hbraces

/-- The text of a placeholder between the two passes. -/
def Placeholder.halfFilled (keyword : String) (p : Placeholder) : List Char :=
  match p.wanted with
  | .keyword => Url.formEncode keyword.toList
  | .page => p.text

theorem brace_not_mem_formEncode (text : List Char) : '\x7b' ∉ Url.formEncode text :=
  fun h => absurd (isFormSign_of_mem_formEncode h) (by decide)

theorem fillKeyword_eq (keyword : String) {t : Slotted Placeholder} (h : t.IsChain Apart) :
    fillPlaceholders "searchKey".toList "key".toList (Url.formEncode keyword.toList)
      (fill Placeholder.text t) = fill (Placeholder.halfFilled keyword) t := by
  refine replaceSpans_fill h (fun cs hcs => ?_) fun p => ?_
  · rw [placeholder?_of_not_braces hcs, Option.map_none]
  · cases hp : p.wanted with
    | keyword =>
        rw [Placeholder.halfFilled, hp]
        exact Or.inl ⟨text_ne_nil p, fun rest => congrArg _ (placeholder?_text hp rest)⟩
    | page =>
        rw [Placeholder.halfFilled, hp]
        exact Or.inr ⟨rfl, @passedOver_text .keyword _ p (by rw [hp]; decide)⟩

theorem fillPage_eq (keyword : String) (page : Nat) {t : Slotted Placeholder}
    (h : t.IsChain Apart) :
    fillPlaceholders "searchPage".toList "page".toList (Decimal.digitsOf page)
      (fill (Placeholder.halfFilled keyword) t) = fill (Placeholder.value keyword page) t := by
  refine replaceSpans_fill h (fun cs hcs => ?_) fun p => ?_
  · rw [placeholder?_of_not_braces hcs, Option.map_none]
  · cases hp : p.wanted with
    | keyword =>
        rw [Placeholder.halfFilled, Placeholder.value, hp]
        exact Or.inr ⟨rfl, passedOver_of_not_mem (brace_not_mem_formEncode _)⟩
    | page =>
        rw [Placeholder.halfFilled, Placeholder.value, hp]
        exact Or.inl ⟨text_ne_nil p, fun rest => congrArg _ (placeholder?_text hp rest)⟩

/-! ## Templates -/

/-- Wherever two braces stand, a placeholder begins. -/
def BracesBeginPlaceholders (t : Slotted Placeholder) : Prop :=
  ∀ before after, fill Placeholder.text t = before ++ '\x7b' :: '\x7b' :: after →
    ∃ front p back, t = front ++ .slot p :: back ∧ fill Placeholder.text front = before

theorem isChain_apart {t : Slotted Placeholder} (h : BracesBeginPlaceholders t) :
    t.IsChain Apart := by
  rw [List.isChain_iff_forall_rel_of_append_cons_cons]
  rintro a b front back rfl rfl
  have hplace : ∀ more, fill Placeholder.text (b :: back) ≠ '\x7b' :: more := by
    intro more hmore
    obtain ⟨front', p, back', ht, hfront⟩ := h (fill Placeholder.text front) more (by
      rw [Text.fill_append, Text.fill_letter, hmore])
    obtain rfl := Text.eq_of_append_eq_append text_ne_nil ht hfront.symm
    simp at ht
  cases b with
  | letter c => exact ⟨c, rfl, fun hc => hplace _ (by rw [hc, Text.fill_letter])⟩
  | slot p => exact absurd (by rw [Text.fill_slot]; rfl) (hplace _)

theorem bracesBeginPlaceholders_of_isChain {t : Slotted Placeholder} (h : t.IsChain Apart) :
    BracesBeginPlaceholders t := by
  induction t with
  | nil => simp [BracesBeginPlaceholders]
  | cons sign t ih =>
      have htail := ih h.tail
      intro before after heq
      cases sign with
      | letter c =>
          cases before with
          | nil =>
              obtain ⟨rfl, hrest⟩ := List.cons.inj heq
              cases t with
              | nil => cases hrest
              | cons next t =>
                  obtain ⟨d, rfl, hd⟩ := (List.isChain_cons_cons.1 h).1 rfl
                  exact absurd (List.cons.inj hrest).1 hd
          | cons b before =>
              obtain ⟨rfl, hrest⟩ := List.cons.inj heq
              obtain ⟨front, p, back, rfl, rfl⟩ := htail before after hrest
              exact ⟨.letter c :: front, p, back, rfl, rfl⟩
      | slot p =>
          rw [Text.fill_slot] at heq
          rcases List.append_eq_append_iff.1 heq with ⟨more, hbefore, hrest⟩ | ⟨more, htext, hrest⟩
          · obtain ⟨front, p', back, rfl, rfl⟩ := htail more after hrest
            exact ⟨.slot p :: front, p', back, rfl, hbefore.symm⟩
          · cases more with
            | nil =>
                obtain ⟨front, p', back, rfl, hfront⟩ := htail [] after hrest.symm
                refine ⟨.slot p :: front, p', back, rfl, ?_⟩
                rw [Text.fill_slot, hfront, htext, List.append_nil, List.append_nil]
            | cons c more =>
                obtain rfl := eq_nil_of_braces htext (by simp) hrest.symm
                exact ⟨[], p, t, rfl, rfl⟩

/-- A template is filled as its placeholders say, and nothing else in it is touched. -/
theorem filledTemplate_fill (source : Source) {keyword : String} (hkeyword : keyword ≠ "")
    (page : Nat) {t : Slotted Placeholder} (h : BracesBeginPlaceholders t) :
    filledTemplate source keyword page (fill Placeholder.text t) =
      fill (Placeholder.value keyword page) t := by
  have hchain := isChain_apart h
  have hbrace : ∀ p, '\x7b' ∉ Placeholder.value keyword page p :=
    fun p hmem => absurd (isFormSign_of_mem_value hmem) (by decide)
  have hoccurs : Text.occursIn ['\x7b', '\x7b'] (fill (Placeholder.value keyword page) t) =
      false := by
    rw [← Bool.not_eq_true, Text.occursIn_iff_isInfix]
    rintro ⟨before, after, heq⟩
    have hfilled : fill (Placeholder.value keyword page) t =
        before ++ '\x7b' :: '\x7b' :: after := by
      simpa using heq.symm
    obtain ⟨front, back, rfl, -, -⟩ := Text.exists_letters_of_fill (value_ne_nil hkeyword page)
      hbrace hbrace hfilled
    have hapart := List.isChain_iff_forall_rel_of_append_cons_cons.1 hchain rfl
    obtain ⟨c, hc, hne⟩ := hapart rfl
    exact hne (Sign.letter.inj hc).symm
  unfold filledTemplate
  dsimp only
  rw [fillKeyword_eq keyword hchain, fillPage_eq keyword page hchain, hoccurs]
  rfl

end BookRules.Request
