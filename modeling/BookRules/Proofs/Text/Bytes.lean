import BookRules.Text.Occurrence
import Mathlib.Data.List.Infix
import Mathlib.Data.String.Basic

/-!
# Byte offsets

Places in a text are given in bytes of its UTF-8 form.  A place between two characters is
the size of the text in front of it, and no two fronts of one text have the same size.
-/

namespace BookRules.Text

variable {cs front other back : List Char} {n : Nat}

/-! ## Sizes -/

@[simp]
theorem byteCount_nil : byteCount [] = 0 :=
  rfl

@[simp]
theorem byteCount_cons (c : Char) (cs : List Char) :
    byteCount (c :: cs) = c.utf8Size + byteCount cs :=
  rfl

@[simp]
theorem byteCount_append (front back : List Char) :
    byteCount (front ++ back) = byteCount front + byteCount back := by
  induction front with
  | nil => simp
  | cons c front ih => simp [ih, Nat.add_assoc]

@[simp]
theorem byteCount_toList (text : String) : byteCount text.toList = text.utf8ByteSize := by
  have hlen : ∀ cs, byteCount cs = String.utf8Len cs := by
    intro cs
    induction cs with
    | nil => rfl
    | cons c cs ih => rw [byteCount_cons, String.utf8Len_cons, ih, Nat.add_comm]
  rw [hlen, String.utf8Len_toList]

theorem length_le_byteCount (cs : List Char) : cs.length ≤ byteCount cs := by
  induction cs with
  | nil => simp
  | cons c cs ih =>
      have := c.utf8Size_pos
      simp only [List.length_cons, byteCount_cons]
      omega

@[simp]
theorem byteCount_reverse (cs : List Char) : byteCount cs.reverse = byteCount cs := by
  induction cs with
  | nil => rfl
  | cons c cs ih => simp [ih, Nat.add_comm]

theorem byteCount_replicate (k : Nat) {c : Char} (hc : c.utf8Size = 1) :
    byteCount (List.replicate k c) = k := by
  induction k with
  | zero => rfl
  | succ k ih => rw [List.replicate_succ, byteCount_cons, ih, hc, Nat.add_comm]

/-- Of two fronts of one text the smaller one is a front of the other. -/
theorem isPrefix_of_byteCount_le (hfront : front <+: cs) (hother : other <+: cs)
    (hle : byteCount front ≤ byteCount other) : front <+: other := by
  rcases List.prefix_or_prefix_of_prefix hfront hother with hshort | ⟨more, rfl⟩
  · exact hshort
  · have hmore : more = [] := by
      rw [byteCount_append] at hle
      have := length_le_byteCount more
      exact List.eq_nil_of_length_eq_zero (by omega)
    simp [hmore]

/-- Two fronts of one text that are equally large are the same, and so is what follows them. -/
theorem append_inj_of_byteCount_eq {rest : List Char} (heq : front ++ back = other ++ rest)
    (hsize : byteCount front = byteCount other) : front = other ∧ back = rest := by
  have hfront : front <+: front ++ back := List.prefix_append front back
  have hother : other <+: front ++ back := ⟨rest, heq.symm⟩
  have hle := (isPrefix_of_byteCount_le hfront hother hsize.le).length_le
  have hge := (isPrefix_of_byteCount_le hother hfront hsize.ge).length_le
  exact List.append_inj heq (Nat.le_antisymm hle hge)

/-! ## Pieces between two places -/

/-- A piece of a text between two byte offsets. -/
def StandsBetween (text : String) (start stop : Nat) (piece : String) : Prop :=
  ∃ front back : String, front ++ piece ++ back = text ∧ front.utf8ByteSize = start ∧
    (front ++ piece).utf8ByteSize = stop

section StandsBetween

variable {text piece more : String} {start middle stop : Nat}

theorem standsBetween_iff : StandsBetween text start stop piece ↔
    ∃ front back : List Char, front ++ piece.toList ++ back = text.toList ∧
      byteCount front = start ∧ byteCount (front ++ piece.toList) = stop := by
  constructor
  · rintro ⟨front, back, rfl, rfl, rfl⟩
    exact ⟨front.toList, back.toList, by simp, by simp, by simp⟩
  · rintro ⟨front, back, htext, rfl, rfl⟩
    refine ⟨String.ofList front, String.ofList back, ?_, ?_, ?_⟩
    · apply String.toList_inj.1
      simpa using htext
    · rw [← byteCount_toList, String.toList_ofList]
    · rw [← byteCount_toList, String.toList_append, String.toList_ofList]

theorem standsBetween_of_append {piece : List Char}
    (htext : front ++ piece ++ back = text.toList) :
    StandsBetween text (byteCount front) (byteCount (front ++ piece)) (String.ofList piece) :=
  standsBetween_iff.2 ⟨front, back, by simpa using htext, rfl, by simp⟩

theorem StandsBetween.append (h : StandsBetween text start middle piece)
    (hmore : StandsBetween text middle stop more) :
    StandsBetween text start stop (piece ++ more) := by
  obtain ⟨front, back, htext, rfl, hmiddle⟩ := standsBetween_iff.1 h
  obtain ⟨front', back', htext', hsize, rfl⟩ := standsBetween_iff.1 hmore
  have hsame : front ++ piece.toList ++ back = front' ++ (more.toList ++ back') := by
    rw [htext, ← htext', List.append_assoc]
  obtain ⟨rfl, -⟩ := append_inj_of_byteCount_eq hsame (hmiddle.trans hsize.symm)
  exact standsBetween_iff.2 ⟨front, back', by simpa using htext', rfl, by simp⟩

theorem StandsBetween.eq (h : StandsBetween text start stop piece)
    (hmore : StandsBetween text start stop more) : piece = more := by
  obtain ⟨front, back, htext, rfl, hstop⟩ := standsBetween_iff.1 h
  obtain ⟨front', back', htext', hsize, rfl⟩ := standsBetween_iff.1 hmore
  obtain ⟨hsame, -⟩ := append_inj_of_byteCount_eq (htext.trans htext'.symm) hstop
  obtain ⟨-, hpiece⟩ := append_inj_of_byteCount_eq hsame hsize.symm
  exact String.toList_inj.1 hpiece

end StandsBetween

/-! ## Dropping bytes -/

theorem dropBytes_append (front cs : List Char) :
    dropBytes (byteCount front) (front ++ cs) = cs := by
  induction front with
  | nil => cases cs <;> rfl
  | cons c front ih =>
      have hpos := c.utf8Size_pos
      obtain ⟨m, hm⟩ : ∃ m, byteCount (c :: front) = m + 1 :=
        Nat.exists_eq_succ_of_ne_zero (by rw [byteCount_cons]; omega)
      have hrest : m + 1 - c.utf8Size = byteCount front := by
        rw [← hm, byteCount_cons]
        omega
      rw [hm, List.cons_append, dropBytes, hrest, ih]

/-- What is dropped is a front of the text; where something is left, the same front is dropped
whatever follows it. -/
theorem exists_append_dropBytes (n : Nat) (cs : List Char) :
    ∃ front, front ++ dropBytes n cs = cs ∧
      (dropBytes n cs ≠ [] → ∀ back, dropBytes n (front ++ back) = back) := by
  fun_induction dropBytes n cs with
  | case1 cs => exact ⟨[], rfl, fun _ back => by cases back <;> rfl⟩
  | case2 n hn => exact ⟨[], rfl, fun hne => absurd rfl hne⟩
  | case3 n c cs ih =>
      obtain ⟨front, hcs, hsame⟩ := ih
      refine ⟨c :: front, by simp [hcs], fun hne back => ?_⟩
      rw [List.cons_append, dropBytes, hsame hne back]

theorem dropBytes?_eq_some_iff : dropBytes? n cs = some back ↔
    ∃ front, front ++ back = cs ∧ byteCount front = n := by
  fun_induction dropBytes? n cs with
  | case1 cs =>
      constructor
      · intro h
        exact ⟨[], by simpa using (Option.some.inj h).symm, rfl⟩
      · rintro ⟨front, rfl, hzero⟩
        have := length_le_byteCount front
        obtain rfl := List.eq_nil_of_length_eq_zero (l := front) (by omega)
        rfl
  | case2 n =>
      simp only [reduceCtorEq, List.append_eq_nil_iff, false_iff]
      rintro ⟨front, ⟨rfl, -⟩, hsize⟩
      simp at hsize
  | case3 n c cs hle ih =>
      rw [ih]
      constructor
      · rintro ⟨front, hcs, hsize⟩
        refine ⟨c :: front, by rw [List.cons_append, hcs], ?_⟩
        rw [byteCount_cons, hsize]
        omega
      · rintro ⟨front, hcs, hsize⟩
        cases front with
        | nil => simp at hsize
        | cons d front =>
            obtain ⟨rfl, rfl⟩ := List.cons.inj hcs
            exact ⟨front, rfl, by rw [byteCount_cons] at hsize; omega⟩
  | case4 n c cs hlt =>
      simp only [reduceCtorEq, false_iff]
      rintro ⟨front, hcs, hsize⟩
      cases front with
      | nil => simp at hsize
      | cons d front =>
          obtain ⟨rfl, rfl⟩ := List.cons.inj hcs
          rw [byteCount_cons] at hsize
          omega

end BookRules.Text
