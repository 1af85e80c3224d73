import Mathlib.Data.List.Basic
import Mathlib.Tactic.SplitIfs

/-!
# Texts with slots

A text with slots stands for all the texts that are made by putting something in the place
of every slot.  Where a character is known not to begin the text of a slot, a filled text
that begins with it comes from a text with slots that begins with it.
-/

namespace BookRules.Text

/-- A place in a text: a character, or a slot to put a text in. -/
inductive Sign (σ : Type)
  | letter (c : Char)
  | slot (s : σ)

/-- A text with slots. -/
abbrev Slotted (σ : Type) :=
  List (Sign σ)

variable {σ : Type} {value value' : σ → List Char}

def letters (cs : List Char) : Slotted σ :=
  cs.map .letter

def Sign.fill (value : σ → List Char) : Sign σ → List Char
  | .letter c => [c]
  | .slot s => value s

/-- The text with a value in the place of every slot. -/
def fill (value : σ → List Char) (text : Slotted σ) : List Char :=
  text.flatMap (Sign.fill value)

/-- Nothing is put into the text. -/
def SlotFree (text : Slotted σ) : Prop :=
  ∀ s, .slot s ∉ text

@[simp] theorem fill_nil (value : σ → List Char) : fill value [] = [] := rfl

@[simp] theorem fill_letter (value : σ → List Char) (c : Char) (text : Slotted σ) :
    fill value (.letter c :: text) = c :: fill value text := rfl

@[simp] theorem fill_slot (value : σ → List Char) (s : σ) (text : Slotted σ) :
    fill value (.slot s :: text) = value s ++ fill value text := rfl

@[simp] theorem fill_append (value : σ → List Char) (front back : Slotted σ) :
    fill value (front ++ back) = fill value front ++ fill value back :=
  List.flatMap_append

@[simp] theorem letters_nil : (letters [] : Slotted σ) = [] := rfl

@[simp] theorem letters_cons (c : Char) (cs : List Char) :
    (letters (c :: cs) : Slotted σ) = .letter c :: letters cs := rfl

@[simp] theorem letters_append (front back : List Char) :
    (letters (front ++ back) : Slotted σ) = letters front ++ letters back :=
  List.map_append

@[simp] theorem fill_letters (value : σ → List Char) (cs : List Char) :
    fill value (letters cs) = cs := by
  induction cs with
  | nil => rfl
  | cons c cs ih => rw [letters_cons, fill_letter, ih]

theorem slotFree_letters (cs : List Char) : SlotFree (letters cs : Slotted σ) := by
  simp [SlotFree, letters]

theorem fill_congr {text : Slotted σ} (h : ∀ s, .slot s ∈ text → value s = value' s) :
    fill value text = fill value' text := by
  refine List.flatMap_congr fun sign hsign => ?_
  cases sign with
  | letter c => rfl
  | slot s => exact h s hsign

theorem SlotFree.fill_eq {text : Slotted σ} (h : SlotFree text) (value value' : σ → List Char) :
    fill value text = fill value' text :=
  fill_congr fun s hs => absurd hs (h s)

theorem SlotFree.exists_letters {text : Slotted σ} (h : SlotFree text) :
    ∃ cs, text = letters cs := by
  induction text with
  | nil => exact ⟨[], rfl⟩
  | cons sign text ih =>
      cases sign with
      | letter c =>
          obtain ⟨cs, rfl⟩ := ih fun s hs => h s (List.mem_cons_of_mem _ hs)
          exact ⟨c :: cs, rfl⟩
      | slot s => exact absurd List.mem_cons_self (h s)

/-- What is put into the slots is made of characters of one kind. -/
def FilledFrom (p : Char → Prop) (value : σ → List Char) : Prop :=
  ∀ s, ∀ c ∈ value s, p c

/-- A letter is told from a slot, and two slots from each other, by two characters that may be
put into slots. -/
theorem eq_of_fill_eq {p : Char → Prop} {a b : Char} (ha : p a) (hb : p b) (hab : a ≠ b)
    {text other : Slotted σ}
    (h : ∀ value : σ → List Char, FilledFrom p value → fill value text = fill value other) :
    text = other := by
  classical
  have hone : FilledFrom p fun _ : σ => [a] := by simpa [FilledFrom] using fun _ : σ => ha
  have hother : FilledFrom p fun _ : σ => [b] := by simpa [FilledFrom] using fun _ : σ => hb
  induction text generalizing other with
  | nil =>
      cases other with
      | nil => rfl
      | cons sign other => cases sign <;> simpa using h _ hone
  | cons sign text ih =>
      cases other with
      | nil => cases sign <;> simpa using h _ hone
      | cons sign' other =>
          cases sign with
          | letter c =>
              cases sign' with
              | letter d =>
                  obtain rfl : c = d := (List.cons.inj (h _ hone)).1
                  rw [ih fun value hvalue => (List.cons.inj (h value hvalue)).2]
              | slot s =>
                  have hca : c = a := (List.cons.inj (h _ hone)).1
                  have hcb : c = b := (List.cons.inj (h _ hother)).1
                  exact absurd (hca.symm.trans hcb) hab
          | slot s =>
              cases sign' with
              | letter d =>
                  have had : a = d := (List.cons.inj (h _ hone)).1
                  have hbd : b = d := (List.cons.inj (h _ hother)).1
                  exact absurd (had.trans hbd.symm) hab
              | slot s' =>
                  by_cases hs : s = s'
                  · subst hs
                    rw [ih fun value hvalue => List.append_cancel_left (h value hvalue)]
                  · have htell : FilledFrom p fun r : σ => if r = s then [a] else [b] := by
                      intro r c hc
                      dsimp only at hc
                      split_ifs at hc
                      · rwa [List.mem_singleton.1 hc]
                      · rwa [List.mem_singleton.1 hc]
                    have hfill := h _ htell
                    simp only [fill_slot, if_true, if_neg (Ne.symm hs)] at hfill
                    exact absurd (List.cons.inj hfill).1 hab

/-- Every slot is filled with a text that begins with `mark`. -/
def BeginsWith (mark : Char) (value : σ → List Char) : Prop :=
  ∀ s, ∃ more, value s = mark :: more

/-- A front without the character that slots begin with is a front of letters. -/
theorem exists_letters_append {mark : Char} (hvalue : BeginsWith mark value)
    {text : Slotted σ} {front back : List Char} (hmark : mark ∉ front)
    (h : fill value text = front ++ back) :
    ∃ rest, text = letters front ++ rest ∧ fill value rest = back := by
  induction front generalizing text with
  | nil => exact ⟨text, rfl, h⟩
  | cons c front ih =>
      rw [List.mem_cons, not_or] at hmark
      cases text with
      | nil => simp at h
      | cons sign text =>
          cases sign with
          | letter d =>
              obtain ⟨rfl, htail⟩ : d = c ∧ fill value text = front ++ back := by simpa using h
              obtain ⟨rest, rfl, hrest⟩ := ih hmark.2 htail
              exact ⟨rest, rfl, hrest⟩
          | slot s =>
              obtain ⟨more, hmore⟩ := hvalue s
              rw [fill_slot, hmore] at h
              exact absurd (List.cons.inj h).1 hmark.1

theorem exists_letter_cons {mark c : Char} (hvalue : BeginsWith mark value)
    {text : Slotted σ} {back : List Char} (hmark : mark ≠ c) (h : fill value text = c :: back) :
    ∃ rest, text = .letter c :: rest ∧ fill value rest = back :=
  @exists_letters_append _ _ _ hvalue text [c] back (by simpa using hmark) h

/-! ## Places in a filled text -/

/-- Nothing is left of a sign when nothing is left of its text. -/
def NonemptyFill (value : σ → List Char) : Prop :=
  ∀ s, value s ≠ []

theorem BeginsWith.nonemptyFill {mark : Char} (h : BeginsWith mark value) :
    NonemptyFill value := by
  intro s
  obtain ⟨more, hmore⟩ := h s
  simp [hmore]

theorem eq_nil_of_fill_eq_nil (hvalue : NonemptyFill value) {text : Slotted σ}
    (h : fill value text = []) : text = [] := by
  cases text with
  | nil => rfl
  | cons sign text =>
      cases sign with
      | letter c => simp at h
      | slot s => exact absurd (List.append_eq_nil_iff.1 h).1 (hvalue s)

/-- A front of a text is known by its length when it is filled. -/
theorem eq_of_append_eq_append (hvalue : NonemptyFill value) {front back front' back' : Slotted σ}
    (h : front ++ back = front' ++ back') (hfill : fill value front = fill value front') :
    front = front' := by
  rcases List.append_eq_append_iff.1 h with ⟨more, rfl, -⟩ | ⟨more, rfl, -⟩
  · rw [fill_append, List.self_eq_append_right] at hfill
    rw [eq_nil_of_fill_eq_nil hvalue hfill, List.append_nil]
  · rw [fill_append, List.append_right_eq_self] at hfill
    rw [eq_nil_of_fill_eq_nil hvalue hfill, List.append_nil]

/-- Two characters that nothing is filled with stand side by side only where they are
written. -/
theorem exists_letters_of_fill (hvalue : NonemptyFill value) {c d : Char}
    (hc : ∀ s, c ∉ value s) (hd : ∀ s, d ∉ value s) {text : Slotted σ} {before after : List Char}
    (h : fill value text = before ++ c :: d :: after) :
    ∃ front back, text = front ++ .letter c :: .letter d :: back ∧
      fill value front = before ∧ fill value back = after := by
  induction text generalizing before with
  | nil => simp at h
  | cons sign text ih =>
      cases sign with
      | letter e =>
          rw [fill_letter] at h
          cases before with
          | nil =>
              obtain ⟨rfl, hrest⟩ := List.cons.inj h
              cases text with
              | nil => simp at hrest
              | cons next text =>
                  cases next with
                  | letter f =>
                      obtain ⟨rfl, rfl⟩ := List.cons.inj hrest
                      exact ⟨[], text, rfl, rfl, rfl⟩
                  | slot s =>
                      obtain ⟨f, more, hmore⟩ := List.exists_cons_of_ne_nil (hvalue s)
                      rw [fill_slot, hmore] at hrest
                      obtain ⟨rfl, -⟩ := List.cons.inj hrest
                      exact absurd (by simp [hmore]) (hd s)
          | cons b before =>
              obtain ⟨rfl, hrest⟩ := List.cons.inj h
              obtain ⟨front, back, rfl, rfl, rfl⟩ := ih hrest
              exact ⟨.letter e :: front, back, rfl, rfl, rfl⟩
      | slot s =>
          rw [fill_slot] at h
          rcases List.append_eq_append_iff.1 h with ⟨more, hbefore, hrest⟩ | ⟨more, hslot, hrest⟩
          · obtain ⟨front, back, rfl, rfl, rfl⟩ := ih hrest
            exact ⟨.slot s :: front, back, rfl, by simp [hbefore], rfl⟩
          · -- the pair would begin inside the slot
            cases more with
            | nil =>
                obtain ⟨front, back, rfl, hfront, rfl⟩ := @ih [] hrest.symm
                refine ⟨.slot s :: front, back, rfl, ?_, rfl⟩
                rw [fill_slot, hfront, hslot]
                simp
            | cons e more =>
                obtain ⟨rfl, -⟩ := List.cons.inj hrest
                exact absurd (by simp [hslot]) (hc s)

end BookRules.Text
