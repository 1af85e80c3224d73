import BookRules.Json.Passing
import BookRules.Proofs.Json.Derivations

/-!
# What is passed over

The inside of a string is passed over without a change of place, so it does not matter what
stands in the slots of a text whose slots stand inside strings only: the passing comes to the
same place.  Two braces side by side, which a slot is written as, are passed over nowhere else.

Whatever a text spells is passed over.  Of the containers that are open in front of a value
none is closed by it and none is left open behind it, which is what the induction carries.
-/

namespace BookRules.Json

open Text (Sign Slotted letters fill)

variable {σ : Type} {value write : σ → List Char}

namespace Passing

variable {p q : Passing} {c : Char} {front rest : List Char} {t : Slotted σ}
variable {opened : List Container}

def inText (p : Passing) : Bool :=
  match p.place with
  | .text _ => true
  | _ => false

/-- Where the passing comes to behind a text, which is still inside the value. -/
def after? (p : Passing) : Slotted σ → Option Passing
  | [] => some p
  | .letter c :: t =>
    if (p.before c).isOver then none
    else match (p.before c).step? c with
      | some q => after? q t
      | none => none
  | .slot _ :: t => if p.inText then after? p t else none

theorem after?_letter (hstep : p.step? c = some q) (hbefore : p.before c = p)
    (hinside : p.isOver = false) (t : Slotted σ) :
    p.after? (.letter c :: t) = q.after? t := by
  rw [after?, hbefore, hinside, hstep]
  rfl

theorem after?_append (p : Passing) (t back : Slotted σ) :
    p.after? (t ++ back) = (p.after? t).bind (·.after? back) := by
  induction t generalizing p with
  | nil => rfl
  | cons sign t ih =>
      cases sign with
      | letter c =>
          rw [List.cons_append, after?, after?]
          split_ifs
          · rfl
          · cases (p.before c).step? c with
            | none => rfl
            | some q => exact ih q
      | slot s =>
          rw [List.cons_append, after?, after?]
          split_ifs
          · exact ih p
          · rfl

/-! ## Strings -/

theorem exists_text (h : p.inText = true) : ∃ named, p.place = .text named := by
  unfold inText at h
  split at h
  · next named hplace => exact ⟨named, hplace⟩
  · cases h

theorem before_text (h : p.inText = true) (c : Char) : p.before c = p := by
  obtain ⟨named, hplace⟩ := exists_text h
  rw [before, hplace]

theorem isOver_text (h : p.inText = true) : p.isOver = false := by
  obtain ⟨named, hplace⟩ := exists_text h
  rw [isOver, hplace]
  rfl

theorem step?_bare (h : p.inText = true) (hc : isBare c = true) : p.step? c = some p := by
  obtain ⟨named, hplace⟩ := exists_text h
  simp only [isBare, Bool.not_eq_true', Bool.or_eq_false_iff, decide_eq_false_iff_not] at hc
  obtain ⟨⟨hcontrol, hquote⟩, hslash⟩ := hc
  simp only [step?, hplace, hquote, hslash, hcontrol, Bool.false_eq_true, if_false]

theorem pass?_bare (h : p.inText = true) (hfront : ∀ c ∈ front, isBare c = true)
    (rest : List Char) : p.pass? (front ++ rest) = p.pass? rest := by
  induction front with
  | nil => rfl
  | cons c front ih =>
      rw [List.forall_mem_cons] at hfront
      rw [List.cons_append, pass?]
      simp only [before_text h, isOver_text h, step?_bare h hfront.1, ih hfront.2,
        Bool.false_eq_true, if_false]

/-! ## Ends -/

theorem not_isDigit_of_not_isNumberSign (h : isNumberSign c = false) :
    Decimal.isDigit c = false :=
  (Bool.or_eq_false_iff.1 h).1

theorem not_sign_of_not_isNumberSign (h : isNumberSign c = false) :
    ∀ d ∈ ['-', '+', '.', 'e', 'E'], (c == d) = false := by
  have hsigns := (Bool.or_eq_false_iff.1 h).2
  intro d hd
  rw [beq_eq_false_iff_ne]
  rintro rfl
  simp [hd] at hsigns

theorem endsBefore_of_not_isNumberSign {part : NumberPart} (hpart : part.mayEnd = true)
    (hc : isNumberSign c = false) : part.endsBefore c = true := by
  have hdigit := not_isDigit_of_not_isNumberSign hc
  have hsign := not_sign_of_not_isNumberSign hc
  have hnext : part.next? c = none := by
    cases part <;> simp [NumberPart.mayEnd, NumberPart.next?, NumberPart.point?,
      NumberPart.power?, hdigit, hsign] at hpart ⊢
  simp [NumberPart.endsBefore, hpart, hnext, hdigit]

/-- A value that may end does end where no number goes on. -/
theorem before_of_mayEnd (h : p.mayEnd = true) (hc : isNumberSign c = false) :
    p.before c = { place := .behind } := by
  obtain ⟨place, opened⟩ := p
  simp only [mayEnd, Bool.and_eq_true, List.isEmpty_iff] at h
  obtain ⟨rfl, hplace⟩ := h
  cases place <;> try cases hplace
  · rfl
  · simp [before, endsBefore_of_not_isNumberSign hplace hc]

theorem pass?_of_mayEnd (h : p.mayEnd = true) (hrest : EndsNumber rest) :
    p.pass? rest = some rest := by
  cases rest with
  | nil => rw [pass?, if_pos h]
  | cons c rest =>
      rw [pass?, before_of_mayEnd h (endsNumber_cons.1 hrest)]
      rfl

theorem mayEnd_of_isOver (h : (p.before c).isOver = true) : p.mayEnd = true := by
  obtain ⟨place, opened⟩ := p
  cases place <;> try (simp [before, isOver] at h; done)
  · simpa [before, isOver, mayEnd] using h
  · next part =>
      simp only [before] at h
      split_ifs at h with hends
      · simp only [NumberPart.endsBefore, Bool.and_eq_true] at hends
        simp only [isOver, Bool.and_eq_true] at h
        simp [mayEnd, h.2, hends.1.1]
      · simp [isOver] at h

/-! ## Slots -/

/-- What stands in the slots of a text makes no difference. -/
theorem pass?_fill (hvalue : FillsStrings value) (h : p.after? t = some q) (rest : List Char) :
    p.pass? (fill value t ++ rest) = q.pass? rest := by
  induction t generalizing p with
  | nil =>
      obtain rfl := Option.some.inj h
      rfl
  | cons sign t ih =>
      cases sign with
      | letter c =>
          rw [after?] at h
          rw [Text.fill_letter, List.cons_append, pass?]
          split_ifs at h ⊢
          split at h
          next q' hstep => simpa only [hstep] using ih h
          next => cases h
      | slot s =>
          rw [after?] at h
          split_ifs at h with htext
          rw [Text.fill_slot, List.append_assoc, pass?_bare htext (hvalue s), ih h]

theorem isBare_of_pass? (h : p.inText = true) (hquote : c ≠ '"') (hslash : c ≠ '\\')
    {answer : List Char} (hpass : p.pass? (c :: rest) = some answer) : isBare c = true := by
  obtain ⟨named, hplace⟩ := exists_text h
  rw [pass?, before_text h] at hpass
  by_contra hbare
  simp_all [isBare, isOver, step?]

theorem isBare_of_pass?_append (h : p.inText = true) (hquote : '"' ∉ front)
    (hslash : '\\' ∉ front) {answer : List Char}
    (hpass : p.pass? (front ++ rest) = some answer) : ∀ c ∈ front, isBare c = true := by
  induction front with
  | nil => simp
  | cons c front ih =>
      rw [List.mem_cons, not_or] at hquote hslash
      have hbare : isBare c = true :=
        isBare_of_pass? h (Ne.symm hquote.1) (Ne.symm hslash.1) hpass
      have htail : p.pass? (front ++ rest) = some answer := by
        rwa [List.cons_append, ← List.singleton_append, pass?_bare h (by simpa using hbare)] at hpass
      exact List.forall_mem_cons.2 ⟨hbare, ih hquote.2 hslash.2 htail⟩

theorem inText_before (h : p.inText = false) (c : Char) : (p.before c).inText = false := by
  unfold before
  split
  · split_ifs
    · rfl
    · exact h
  · exact h

/-- Two braces stand side by side inside strings only. -/
theorem step?_brace (h : p.inText = false) (hstep : p.step? '\x7b' = some q) :
    q.isOver = false ∧ q.before '\x7b' = q ∧ q.step? '\x7b' = none := by
  obtain ⟨place, opened⟩ := p
  have hhex : Text.hexValue? '\x7b' = none := by decide
  have hescape : simpleEscape? '\x7b' = none := by decide
  cases place with
  | value | firstItem =>
      obtain rfl := Option.some.inj hstep
      exact ⟨rfl, rfl, rfl⟩
  | behind => rcases opened with _ | ⟨_ | _, opened⟩ <;> cases hstep
  | text named => cases h
  | escape named => simp [step?, hescape] at hstep
  | code named left => simp [step?, hhex] at hstep
  | word w passed =>
      have hletter : w.letters[passed]? ≠ some '\x7b' := by
        intro hmem
        have hword := List.mem_of_getElem? hmem
        revert hword
        cases w <;> decide
      simp [step?, hletter] at hstep
  | number part => cases part <;> cases hstep
  | _ => cases hstep

/-- What is passed over ends somewhere in the text, and not inside a slot. -/
theorem exists_after? (hwrite : Braced write) (h : p.pass? (fill write t) = some rest) :
    ∃ front back q, t = front ++ back ∧ fill write back = rest ∧ p.after? front = some q ∧
      q.mayEnd = true := by
  induction t generalizing p with
  | nil =>
      rw [Text.fill_nil, pass?] at h
      split_ifs at h with hend
      obtain rfl := Option.some.inj h
      exact ⟨[], [], p, rfl, rfl, rfl, hend⟩
  | cons sign t ih =>
      cases sign with
      | letter c =>
          rw [Text.fill_letter, pass?] at h
          split_ifs at h with hover
          · obtain rfl := Option.some.inj h
            exact ⟨[], .letter c :: t, p, rfl, rfl, rfl, mayEnd_of_isOver hover⟩
          · split at h
            next q hstep =>
              obtain ⟨front, back, q', rfl, hback, hafter, hend⟩ := ih h
              refine ⟨.letter c :: front, back, q', rfl, hback, ?_, hend⟩
              rw [after?, if_neg hover, hstep]
              exact hafter
            next => cases h
      | slot s =>
          obtain ⟨more, hmore⟩ := hwrite.opens s
          cases htext : p.inText with
          | true =>
              have hbare : ∀ c ∈ write s, isBare c = true :=
                isBare_of_pass?_append htext (hwrite.unquoted s).1 (hwrite.unquoted s).2 h
              rw [Text.fill_slot, pass?_bare htext hbare] at h
              obtain ⟨front, back, q, rfl, hback, hafter, hend⟩ := ih h
              refine ⟨.slot s :: front, back, q, rfl, hback, ?_, hend⟩
              rw [after?, if_pos htext]
              exact hafter
          | false =>
              rw [Text.fill_slot, hmore, List.cons_append, pass?] at h
              split_ifs at h with hover
              · obtain rfl := Option.some.inj h
                refine ⟨[], .slot s :: t, p, rfl, ?_, rfl, mayEnd_of_isOver hover⟩
                rw [Text.fill_slot, hmore]
                rfl
              · split at h
                next q hstep =>
                  obtain ⟨hinside, hbefore, hnone⟩ := step?_brace (inText_before htext _) hstep
                  simp [pass?, hbefore, hinside, hnone] at h
                next => cases h

end Passing

/-! ## Numbers -/

namespace NumberPart

variable {part next last : NumberPart} {cs digits : List Char} {n : Number}
variable {negative : Bool} {significand : Nat} {start : Int}

/-- Where a number comes to behind more characters of it. -/
def passes? (part : NumberPart) (cs : List Char) : Option NumberPart :=
  cs.foldlM next? part

theorem passes?_cons {c : Char} (h : part.next? c = some next) (cs : List Char) :
    part.passes? (c :: cs) = next.passes? cs := by
  rw [passes?, List.foldlM_cons, h]
  rfl

theorem passes?_append (h : part.passes? digits = some next) (cs : List Char) :
    part.passes? (digits ++ cs) = next.passes? cs := by
  rw [passes?, List.foldlM_append, ← passes?, h]
  rfl

/-- Digits, where one leads to a part that goes on with digits. -/
theorem passes?_digits (hfirst : ∀ d, Decimal.isDigit d = true → part.next? d = some next)
    (hnext : ∀ d, Decimal.isDigit d = true → next.next? d = some next) (hne : digits ≠ [])
    (hdigits : ∀ d ∈ digits, Decimal.isDigit d = true) : part.passes? digits = some next := by
  induction digits generalizing part with
  | nil => exact absurd rfl hne
  | cons d digits ih =>
      rw [List.forall_mem_cons] at hdigits
      rw [passes?_cons (hfirst d hdigits.1)]
      cases digits with
      | nil => rfl
      | cons e digits => exact ih hnext (by simp) hdigits.2

theorem passes?_takeWhile (hfirst : ∀ d, Decimal.isDigit d = true → part.next? d = some next)
    (hnext : ∀ d, Decimal.isDigit d = true → next.next? d = some next)
    (hne : (cs.takeWhile Decimal.isDigit).isEmpty = false) :
    part.passes? cs = next.passes? (cs.dropWhile Decimal.isDigit) := by
  have hdigits : ∀ d ∈ cs.takeWhile Decimal.isDigit, Decimal.isDigit d = true :=
    fun d hd => List.all_eq_true.1 List.all_takeWhile d hd
  have hpasses := passes?_digits hfirst hnext (by simpa using hne) hdigits
  rw [← passes?_append hpasses, List.takeWhile_append_dropWhile]

theorem passes?_powerDigits {down : Bool}
    (hpart : part = .power ∨ part = .powerSign)
    (h : powerDigits? negative significand start down cs = some (n, [])) :
    part.passes? cs = some .powerDigits := by
  obtain ⟨n', hn, heq⟩ := Option.map_eq_some_iff.1 h
  have hrest : cs.dropWhile Decimal.isDigit = [] := congrArg Prod.snd heq
  have hne : (cs.takeWhile Decimal.isDigit).isEmpty = false := by
    by_contra hempty
    rw [Bool.not_eq_false] at hempty
    rw [powered?, if_pos hempty] at hn
    cases hn
  have hnext : ∀ d, Decimal.isDigit d = true → next? .powerDigits d = some .powerDigits := by
    intro d hd
    simp [next?, hd]
  have hfirst : ∀ d, Decimal.isDigit d = true → part.next? d = some .powerDigits := by
    intro d hd
    have hplus : d ≠ '+' := by
      rintro rfl
      cases hd
    have hminus : d ≠ '-' := by
      rintro rfl
      cases hd
    rcases hpart with rfl | rfl <;> simp [next?, hd, hplus, hminus]
  rw [passes?_takeWhile hfirst hnext hne, hrest]
  rfl

theorem passes?_power (h : powerPart? negative significand start cs = some (n, [])) :
    passes? .power cs = some .powerDigits := by
  by_cases hsign : ∃ c rest, cs = c :: rest ∧ c ∈ ['+', '-']
  · obtain ⟨c, rest, rfl, hc⟩ := hsign
    rw [powerPart?_sign negative significand start hc] at h
    have hnext : next? .power c = some .powerSign := by
      simp only [List.mem_cons, List.not_mem_nil, or_false] at hc
      rcases hc with rfl | rfl <;> rfl
    rw [passes?_cons hnext, passes?_powerDigits (.inr rfl) h]
  · rw [powerPart?_unsigned negative significand start] at h
    · exact passes?_powerDigits (.inl rfl) h
    · intro c hc hmem
      obtain ⟨rest, rfl⟩ := List.head?_eq_some_iff.1 hc
      exact hsign ⟨c, rest, rfl, hmem⟩

theorem next?_power {c : Char} (hpart : part = .zero ∨ part = .whole ∨ part = .fraction)
    (hc : c = 'e' ∨ c = 'E') : part.next? c = some .power := by
  rcases hc with rfl | rfl <;> rcases hpart with rfl | rfl | rfl <;> rfl

theorem passes?_afterFraction (h : afterFraction? negative significand start cs = some (n, [])) :
    ∃ last : NumberPart, last.mayEnd = true ∧ passes? .fraction cs = some last := by
  unfold afterFraction? at h
  split at h
  next rest =>
    refine ⟨.powerDigits, rfl, ?_⟩
    rw [passes?_cons (next?_power (.inr (.inr rfl)) (.inl rfl)), passes?_power h]
  next rest =>
    refine ⟨.powerDigits, rfl, ?_⟩
    rw [passes?_cons (next?_power (.inr (.inr rfl)) (.inr rfl)), passes?_power h]
  next =>
    obtain ⟨n', -, heq⟩ := Option.map_eq_some_iff.1 h
    obtain rfl : cs = [] := congrArg Prod.snd heq
    exact ⟨.fraction, rfl, rfl⟩

theorem passes?_fraction (h : fractionPart? negative significand start cs = some (n, [])) :
    ∃ last : NumberPart, last.mayEnd = true ∧ passes? .point cs = some last := by
  unfold fractionPart? at h
  dsimp only at h
  split_ifs at h with hempty
  have hdigit : ∀ part : NumberPart, part = .point ∨ part = .fraction →
      ∀ d, Decimal.isDigit d = true → part.next? d = some .fraction := by
    rintro part (rfl | rfl) d hd <;> simp [next?, hd]
  obtain ⟨last, hlast, hpasses⟩ := passes?_afterFraction h
  refine ⟨last, hlast, ?_⟩
  rw [passes?_takeWhile (hdigit _ (.inl rfl)) (hdigit _ (.inr rfl)) (by simpa using hempty),
    hpasses]

theorem passes?_afterWhole (hpart : part = .zero ∨ part = .whole)
    (h : afterWhole? negative digits cs = some (n, [])) :
    ∃ last : NumberPart, last.mayEnd = true ∧ part.passes? cs = some last := by
  have hpart' : part = .zero ∨ part = .whole ∨ part = .fraction := by
    rcases hpart with rfl | rfl <;> simp
  unfold afterWhole? at h
  dsimp only at h
  split at h
  next rest =>
    obtain ⟨last, hlast, hpasses⟩ := passes?_fraction h
    have hpoint : part.next? '.' = some .point := by
      rcases hpart with rfl | rfl <;> rfl
    exact ⟨last, hlast, by rw [passes?_cons hpoint, hpasses]⟩
  next rest =>
    refine ⟨.powerDigits, rfl, ?_⟩
    rw [passes?_cons (next?_power hpart' (.inl rfl)), passes?_power h]
  next rest =>
    refine ⟨.powerDigits, rfl, ?_⟩
    rw [passes?_cons (next?_power hpart' (.inr rfl)), passes?_power h]
  next =>
    have hrest : cs = [] := by
      split_ifs at h
      · exact congrArg Prod.snd (Option.some.inj h)
      · obtain ⟨n', -, heq⟩ := Option.map_eq_some_iff.1 h
        exact congrArg Prod.snd heq
    subst hrest
    refine ⟨part, ?_, rfl⟩
    rcases hpart with rfl | rfl <;> rfl

theorem passes?_whole {d : Char} (hd : ∀ e ∈ d :: digits, Decimal.isDigit e = true)
    (hzero : d ≠ '0') : passes? .minus (d :: digits) = some .whole := by
  rw [List.forall_mem_cons] at hd
  have hstay : ∀ e, Decimal.isDigit e = true → next? .whole e = some .whole := by
    intro e he
    simp [next?, he]
  have hfirst : next? .minus d = some .whole := by
    simp [next?, hd.1, hzero]
  rw [passes?_cons hfirst]
  cases digits with
  | nil => rfl
  | cons e digits => exact passes?_digits hstay hstay (by simp) hd.2

/-- What is read as a number behind its sign is passed over. -/
theorem passes?_numberTail (h : numberTail? negative cs = some (n, [])) :
    ∃ last : NumberPart, last.mayEnd = true ∧ passes? .minus cs = some last := by
  have hread : numberTail? negative cs =
      wholePart? negative (cs.takeWhile Decimal.isDigit) (cs.dropWhile Decimal.isDigit) := rfl
  have hdigits : ∀ d ∈ cs.takeWhile Decimal.isDigit, Decimal.isDigit d = true :=
    fun d hd => List.all_eq_true.1 List.all_takeWhile d hd
  have hwhole := List.takeWhile_append_dropWhile (p := Decimal.isDigit) (l := cs)
  rw [hread] at h
  generalize cs.takeWhile Decimal.isDigit = digits at h hdigits hwhole
  generalize cs.dropWhile Decimal.isDigit = rest at h hwhole
  subst hwhole
  unfold wholePart? at h
  split at h
  · cases h
  · cases h
  next hne hzero =>
    cases digits with
    | nil => exact absurd rfl hne
    | cons d digits =>
        by_cases hd : d = '0'
        · subst hd
          obtain rfl : digits = [] := by
            cases digits with
            | nil => rfl
            | cons e digits => exact absurd rfl (hzero e digits)
          obtain ⟨last, hlast, hpasses⟩ := passes?_afterWhole (.inl rfl) h
          exact ⟨last, hlast, hpasses⟩
        · obtain ⟨last, hlast, hpasses⟩ := passes?_afterWhole (.inr rfl) h
          refine ⟨last, hlast, ?_⟩
          rw [passes?_append (passes?_whole hdigits hd), hpasses]

end NumberPart

namespace Passing

variable {p q q' : Passing} {c : Char} {ws cs : List Char} {t raw text : Slotted σ}
variable {opened : List Container} {kind : Container} {n : Number}

/-! ## Places -/

def AtValue (p : Passing) : Prop :=
  p.place = .value ∨ p.place = .firstItem

def AtName (p : Passing) : Prop :=
  p.place = .name ∨ p.place = .firstName

/-- A value has been passed, and these containers are open around it. -/
inductive Behind (opened : List Container) : Passing → Prop
  | sign : Behind opened { place := .behind, opened }
  | number {part : NumberPart} (hpart : part.mayEnd = true) :
      Behind opened { place := .number part, opened }

theorem Behind.mayEnd (h : Behind [] q) : q.mayEnd = true := by
  cases h with
  | sign => rfl
  | number hpart => simpa [Passing.mayEnd] using hpart

/-- White space is passed over here. -/
def SkipsBlanks (p : Passing) : Prop :=
  ∀ c, isSpace c = true → p.step? c = some p ∧ p.before c = p ∧ p.isOver = false

theorem AtValue.skipsBlanks (h : p.AtValue) : p.SkipsBlanks := by
  obtain ⟨place, opened⟩ := p
  intro c hc
  rcases h with rfl | rfl <;> exact ⟨if_pos hc, rfl, rfl⟩

theorem AtName.skipsBlanks (h : p.AtName) : p.SkipsBlanks := by
  obtain ⟨place, opened⟩ := p
  intro c hc
  rcases h with rfl | rfl <;> exact ⟨if_pos hc, rfl, rfl⟩

theorem skipsBlanks_colon (opened : List Container) : (Passing.mk .colon opened).SkipsBlanks :=
  fun _ hc => ⟨if_pos hc, rfl, rfl⟩

theorem skipsBlanks_behind (kind : Container) (opened : List Container) :
    (Passing.mk .behind (kind :: opened)).SkipsBlanks :=
  fun _ hc => ⟨if_pos hc, rfl, rfl⟩

theorem after?_blanks (h : p.SkipsBlanks) (hws : Blanks ws) (t : Slotted σ) :
    p.after? (letters ws ++ t) = p.after? t := by
  induction ws with
  | nil => rfl
  | cons c ws ih =>
      obtain ⟨hc, hws⟩ := List.forall_mem_cons.1 hws
      obtain ⟨hstep, hbefore, hinside⟩ := h c hc
      rw [Text.letters_cons, List.cons_append, after?_letter hstep hbefore hinside, ih hws]

theorem after?_begin (h : p.AtValue) (hc : isSpace c = false ∧ c ≠ ']')
    (hbegin : p.begin? c = some q) (t : Slotted σ) : p.after? (.letter c :: t) = q.after? t := by
  obtain ⟨place, opened⟩ := p
  have hstep : ∀ place, place = .value ∨ place = .firstItem →
      (Passing.mk place opened).step? c = (Passing.mk place opened).begin? c := by
    rintro place (rfl | rfl) <;> simp [step?, hc]
  rcases h with rfl | rfl
  · exact after?_letter ((hstep _ (.inl rfl)).trans hbegin) rfl rfl t
  · exact after?_letter ((hstep _ (.inr rfl)).trans hbegin) rfl rfl t

theorem after?_open (h : p.AtName) (t : Slotted σ) :
    p.after? (.letter '"' :: t) = (Passing.mk (.text true) p.opened).after? t := by
  obtain ⟨place, opened⟩ := p
  rcases h with rfl | rfl <;> rfl

/-! ## Behind values -/

theorem isNumberSign_of_isSpace (h : isSpace c = true) : isNumberSign c = false := by
  simp only [isSpace, Bool.or_eq_true, beq_iff_eq] at h
  rcases h with ((rfl | rfl) | rfl) | rfl <;> rfl

theorem Behind.after?_letter (h : Behind opened q) (hc : isNumberSign c = false)
    (t : Slotted σ) :
    q.after? (.letter c :: t) = (Passing.mk .behind opened).after? (.letter c :: t) := by
  cases h with
  | sign => rfl
  | @number part hpart =>
      have hbefore : (Passing.mk (.number part) opened).before c = ⟨.behind, opened⟩ :=
        if_pos (endsBefore_of_not_isNumberSign hpart hc)
      rw [after?, after?, hbefore]
      rfl

theorem Behind.after?_sign (h : Behind (kind :: opened) q) (hws : Blanks ws)
    (hc : isSpace c = false ∧ isNumberSign c = false)
    (hsign : (Passing.mk .behind (kind :: opened)).sign? c = some q') (t : Slotted σ) :
    q.after? (letters ws ++ .letter c :: t) = q'.after? t := by
  have hstep : (Passing.mk .behind (kind :: opened)).after? (.letter c :: t) = q'.after? t := by
    refine Passing.after?_letter ?_ rfl rfl t
    simpa [step?, hc.1] using hsign
  cases ws with
  | nil => exact (h.after?_letter hc.2 t).trans hstep
  | cons d ws =>
      have hd := isNumberSign_of_isSpace (List.forall_mem_cons.1 hws).1
      calc
        q.after? (letters (d :: ws) ++ .letter c :: t)
          = (Passing.mk .behind (kind :: opened)).after? (letters (d :: ws) ++ .letter c :: t) :=
            h.after?_letter hd _
        _ = (Passing.mk .behind (kind :: opened)).after? (.letter c :: t) :=
            after?_blanks (skipsBlanks_behind kind opened) hws _
        _ = q'.after? t := hstep

theorem Behind.exists_after?_blanks (h : Behind (kind :: opened) q) (hws : Blanks ws) :
    ∃ q', q.after? (letters ws : Slotted σ) = some q' ∧ Behind (kind :: opened) q' := by
  cases ws with
  | nil => exact ⟨q, rfl, h⟩
  | cons c ws =>
      have hc := isNumberSign_of_isSpace (List.forall_mem_cons.1 hws).1
      have hskip := after?_blanks (skipsBlanks_behind kind opened) hws ([] : Slotted σ)
      rw [List.append_nil] at hskip
      exact ⟨_, (h.after?_letter hc _).trans hskip, .sign⟩

/-! ## What is spelled -/

variable {named : Bool}

theorem after?_hex {d : Char} (h : (Text.hexValue? d).isSome) (left : Nat) (t : Slotted σ) :
    (Passing.mk (.code named (left + 1)) opened).after? (.letter d :: t) =
      (Passing.mk (.code named left) opened).after? t := by
  obtain ⟨n, hn⟩ := Option.isSome_iff_exists.1 h
  refine after?_letter ?_ rfl rfl t
  simp [step?, hn, at_]

theorem isSome_hexValue?_of_hex4? {a b c d : Char} {code : Nat} (h : hex4? a b c d = some code) :
    (Text.hexValue? a).isSome ∧ (Text.hexValue? b).isSome ∧ (Text.hexValue? c).isSome ∧
      (Text.hexValue? d).isSome := by
  unfold hex4? at h
  obtain ⟨_, ha, h⟩ := Option.bind_eq_some_iff.1 h
  obtain ⟨_, hb, h⟩ := Option.bind_eq_some_iff.1 h
  obtain ⟨_, hc, h⟩ := Option.bind_eq_some_iff.1 h
  obtain ⟨_, hd, -⟩ := Option.bind_eq_some_iff.1 h
  simp [ha, hb, hc, hd]

/-- A code is passed over whatever it stands for. -/
theorem after?_code {a b c d : Char} {code : Nat} (h : hex4? a b c d = some code)
    (t : Slotted σ) :
    (Passing.mk (.text named) opened).after? (letters ['\\', 'u', a, b, c, d] ++ t) =
      (Passing.mk (.text named) opened).after? t := by
  obtain ⟨ha, hb, hc, hd⟩ := isSome_hexValue?_of_hex4? h
  obtain ⟨n, hn⟩ := Option.isSome_iff_exists.1 hd
  have hlast : (Passing.mk (.code named 0) opened).after? (.letter d :: t) =
      (Passing.mk (.text named) opened).after? t := by
    refine after?_letter ?_ rfl rfl t
    simp [step?, hn, at_]
  calc
    (Passing.mk (.text named) opened).after? (letters ['\\', 'u', a, b, c, d] ++ t)
      = (Passing.mk (.code named 3) opened).after? (letters [a, b, c, d] ++ t) := rfl
    _ = (Passing.mk (.code named 0) opened).after? (.letter d :: t) :=
        (after?_hex ha 2 _).trans ((after?_hex hb 1 _).trans (after?_hex hc 0 _))
    _ = (Passing.mk (.text named) opened).after? t := hlast

theorem after?_text (h : SpellsText raw text) (t : Slotted σ) :
    (Passing.mk (.text named) opened).after? (raw ++ t) =
      (Passing.mk (.text named) opened).after? t := by
  induction h with
  | nil => rfl
  | bare hbare hrest ih => exact (after?_letter (step?_bare rfl hbare) rfl rfl _).trans ih
  | slot hrest ih => exact ih
  | @escape c e raw text hescape hrest ih =>
      have hcode : c ≠ 'u' := by
        rintro rfl
        cases hescape
      have hstep : (Passing.mk (.escape named) opened).step? c = some ⟨.text named, opened⟩ := by
        simp [step?, hcode, hescape, at_]
      exact (after?_letter hstep rfl rfl _).trans ih
  | code hcode hlow hhigh hrest ih =>
      rw [List.append_assoc]
      exact (after?_code hcode _).trans ih
  | surrogates hcode hhigh hcode' hlow hrest ih =>
      rw [List.append_assoc]
      exact (after?_code hcode _).trans ((after?_code hcode' _).trans ih)

theorem after?_quote (t : Slotted σ) :
    (Passing.mk (.text named) opened).after? (.letter '"' :: t) =
      (Passing.mk (if named then .colon else .behind) opened).after? t :=
  rfl

theorem after?_word (h : p.AtValue) (w : Word) :
    p.after? (letters w.letters : Slotted σ) = some { p with place := .behind } := by
  obtain ⟨place, opened⟩ := p
  rcases h with rfl | rfl <;> cases w <;> rfl

theorem after?_number {part last : NumberPart} (h : part.passes? cs = some last) :
    (Passing.mk (.number part) opened).after? (letters cs : Slotted σ) =
      some { place := .number last, opened } := by
  induction cs generalizing part with
  | nil =>
      obtain rfl := Option.some.inj h
      rfl
  | cons c cs ih =>
      obtain ⟨next, hnext, hcs⟩ := Option.bind_eq_some_iff.1 h
      have hstep : (Passing.mk (.number part) opened).step? c = some ⟨.number next, opened⟩ := by
        simp [step?, hnext, at_]
      have hbefore : (Passing.mk (.number part) opened).before c = ⟨.number part, opened⟩ := by
        simp [before, NumberPart.endsBefore, hnext]
      rw [Text.letters_cons, after?_letter hstep hbefore rfl, ih hcs]

theorem begin?_digit (p : Passing) (hc : Decimal.isDigit c = true) :
    p.begin? c = (NumberPart.minus.next? c).bind fun part => p.at_ (.number part) := by
  unfold begin?
  split <;> first
    | rfl
    | cases hc

theorem exists_after?_number (h : p.AtValue) (hnumber : number? cs = some (n, [])) :
    ∃ q, p.after? (letters cs : Slotted σ) = some q ∧ Behind p.opened q := by
  obtain ⟨c, cs, rfl, hc⟩ := number?_head hnumber
  by_cases hminus : c = '-'
  · subst hminus
    obtain ⟨last, hlast, hpasses⟩ := NumberPart.passes?_numberTail hnumber
    refine ⟨_, ?_, .number hlast⟩
    rw [Text.letters_cons, after?_begin h (by decide) rfl]
    exact after?_number hpasses
  · have hdigit : Decimal.isDigit c = true := hc.resolve_left hminus
    have htail : numberTail? false (c :: cs) = some (n, []) := by
      rwa [number?] at hnumber
      exact fun _ heq => hminus (List.cons.inj heq).1
    obtain ⟨last, hlast, hpasses⟩ := NumberPart.passes?_numberTail htail
    obtain ⟨next, hnext, hrest⟩ := Option.bind_eq_some_iff.1 hpasses
    have hbegin : p.begin? c = some { p with place := .number next } := by
      rw [begin?_digit p hdigit, hnext]
      rfl
    have hsign : isSpace c = false ∧ c ≠ ']' := by
      constructor
      · rw [← Bool.not_eq_true]
        intro hspace
        have hnot := isNumberSign_of_isSpace hspace
        simp [isNumberSign, hdigit] at hnot
      · rintro rfl
        cases hdigit
    refine ⟨_, ?_, .number hlast⟩
    rw [Text.letters_cons, after?_begin h hsign hbegin]
    exact after?_number hrest

/-- The passing is in front of a part. -/
def Starts (p : Passing) : Part σ → Prop
  | .value _ => p.AtValue
  | .items _ => p.AtValue ∧ p.opened.head? = some .array
  | .member _ _ | .members _ => p.AtName ∧ p.opened.head? = some .object

/-- What a text spells is passed over, and the containers around it stay open. -/
theorem exists_after?_of_spells {depth : Nat} {part : Part σ} (h : Spells depth t part)
    (hp : p.Starts part) : ∃ q, p.after? t = some q ∧ Behind p.opened q := by
  induction h generalizing p with
  | blanks hws hform ih =>
      rw [after?_blanks (AtValue.skipsBlanks hp) hws]
      exact ih hp
  | null => exact ⟨_, after?_word hp .null, .sign⟩
  | yes => exact ⟨_, after?_word hp .yes, .sign⟩
  | no => exact ⟨_, after?_word hp .no, .sign⟩
  | number hnumber => exact exists_after?_number hp hnumber
  | @string depth raw text htext =>
      refine ⟨_, ?_, .sign⟩
      rw [after?_begin hp (by decide) rfl, after?_text htext, after?_quote]
      rfl
  | @emptyArray depth ws hws =>
      refine ⟨_, ?_, .sign⟩
      rw [after?_begin hp (by decide) rfl, after?_blanks (AtValue.skipsBlanks (.inr rfl)) hws]
      rfl
  | @array depth t forms hforms ih =>
      obtain ⟨q, hq, hbehind⟩ := @ih ⟨.firstItem, .array :: p.opened⟩ ⟨.inr rfl, rfl⟩
      refine ⟨_, ?_, .sign⟩
      rw [after?_begin hp (by decide) rfl, after?_append, hq]
      exact hbehind.after?_sign blanks_nil (by decide) rfl []
  | @emptyObject depth ws hws =>
      refine ⟨_, ?_, .sign⟩
      rw [after?_begin hp (by decide) rfl, after?_blanks (AtName.skipsBlanks (.inr rfl)) hws]
      rfl
  | @object depth t members hmembers ih =>
      obtain ⟨q, hq, hbehind⟩ := @ih ⟨.firstName, .object :: p.opened⟩ ⟨.inr rfl, rfl⟩
      refine ⟨_, ?_, .sign⟩
      rw [after?_begin hp (by decide) rfl, after?_append, hq]
      exact hbehind.after?_sign blanks_nil (by decide) rfl []
  | @lastItem depth ws t form hform hws ih =>
      obtain ⟨opened, hopened⟩ := List.head?_eq_some_iff.1 hp.2
      obtain ⟨q, hq, hbehind⟩ := ih hp.1
      rw [hopened] at hbehind ⊢
      rw [after?_append, hq]
      exact hbehind.exists_after?_blanks hws
  | @items depth ws t rest form forms hform hws hforms ih ih' =>
      obtain ⟨opened, hopened⟩ := List.head?_eq_some_iff.1 hp.2
      obtain ⟨q, hq, hbehind⟩ := ih hp.1
      rw [hopened] at hbehind ⊢
      rw [after?_append, hq, Option.bind_some, hbehind.after?_sign hws (by decide) rfl]
      exact ih' ⟨.inl rfl, rfl⟩
  | @member depth ws ws' raw name t form hws hname hws' hform ih =>
      obtain ⟨q, hq, hbehind⟩ := @ih ⟨.value, p.opened⟩ (.inl rfl)
      refine ⟨q, ?_, hbehind⟩
      rw [after?_blanks hp.1.skipsBlanks hws, after?_open hp.1, after?_text hname, after?_quote]
      exact (after?_blanks (skipsBlanks_colon p.opened) hws' _).trans hq
  | @lastMember depth ws t name form hmember hws ih =>
      obtain ⟨opened, hopened⟩ := List.head?_eq_some_iff.1 hp.2
      obtain ⟨q, hq, hbehind⟩ := ih hp
      rw [hopened] at hbehind ⊢
      rw [after?_append, hq]
      exact hbehind.exists_after?_blanks hws
  | @members depth ws t rest name form members hmember hws hmembers ih ih' =>
      obtain ⟨opened, hopened⟩ := List.head?_eq_some_iff.1 hp.2
      obtain ⟨q, hq, hbehind⟩ := ih hp
      rw [hopened] at hbehind ⊢
      rw [after?_append, hq, Option.bind_some, hbehind.after?_sign hws (by decide) rfl]
      exact ih' ⟨.inl rfl, rfl⟩

end Passing

/-- A text that is passed over as a value. -/
def Passes (t : Slotted σ) : Prop :=
  ∃ q, ({} : Passing).after? t = some q ∧ q.mayEnd = true

theorem Spells.passes {depth : Nat} {t : Slotted σ} {form : Form σ}
    (h : Spells depth t (.value form)) : Passes t := by
  obtain ⟨q, hq, hbehind⟩ := @Passing.exists_after?_of_spells _ {} _ _ _ h (.inl rfl)
  exact ⟨q, hq, hbehind.mayEnd⟩

theorem Passes.pass?_eq (hvalue : FillsStrings value) {t : Slotted σ} (h : Passes t)
    {rest : List Char} (hrest : EndsNumber rest) :
    ({} : Passing).pass? (fill value t ++ rest) = some rest := by
  obtain ⟨q, hq, hend⟩ := h
  rw [Passing.pass?_fill hvalue hq, Passing.pass?_of_mayEnd hend hrest]

/-- What is passed over of a text with slots passes whatever stands in the slots. -/
theorem exists_passes (hwrite : Braced write) {t : Slotted σ} {rest : List Char}
    (h : ({} : Passing).pass? (fill write t) = some rest) :
    ∃ front back, t = front ++ back ∧ fill write back = rest ∧ Passes front := by
  obtain ⟨front, back, q, rfl, hback, hq, hend⟩ := Passing.exists_after? hwrite h
  exact ⟨front, back, rfl, hback, q, hq, hend⟩

end BookRules.Json
