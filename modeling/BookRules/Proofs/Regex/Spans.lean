import BookRules.Regex.Program
import BookRules.Regex.Search
import Mathlib.Data.List.Basic
import Mathlib.Tactic.SplitIfs

/-!
# The spans of matches

The program of a pattern is written from its end.  Its first two instructions accept a match
and, in front of that, note where the match ends; its last one notes where the match starts.
What stands between them neither accepts nor goes on at the instruction that accepts, so a
way through the program notes the start first and comes to its end by way of the note.

What the slots of a thread say of the whole match is kept by every step of the search: a thread
that has left the start of the program has noted where the match starts, and a thread that
stands at the end has just noted where it is.  A match therefore has a span within the text.

Nothing else is asked of a search, whatever engine it comes from: matches that follow each other
do not overlap, and there is no further one behind the last.
-/

namespace BookRules.Regex

section Programs

namespace Instruction

/-- The places where an instruction goes on. -/
def targets : Instruction → List Nat
  | .char _ next | .place _ next | .save _ next => [next]
  | .fork first second => [first, second]
  | .accept => []

/-- An instruction inside a program, which does not accept and does not go on at the end. -/
def IsInner (i : Instruction) : Prop :=
  i ≠ .accept ∧ 0 ∉ i.targets

end Instruction

/-- Code that goes on with instructions inside a program. -/
structure Extends (code longer : Code) : Prop where
  size_le : code.size ≤ longer.size
  keeps : ∀ i < code.size, longer[i]? = code[i]?
  inner : ∀ i, code.size ≤ i → ∀ instruction, longer[i]? = some instruction →
    instruction.IsInner

/-- An answer of the compiler: where the code of an expression starts, behind the end of the
program, and the code. -/
structure Continues (code : Code) (answer : Nat × Code) : Prop where
  code_extends : Extends code answer.2
  start_ne : answer.1 ≠ 0

variable {code longer longest : Code} {answer : Nat × Code} {next : Nat} {i : Instruction}

theorem Extends.refl (code : Code) : Extends code code where
  size_le := Nat.le_refl _
  keeps := fun _ _ => rfl
  inner := by
    intro i hi instruction hget
    rw [Array.getElem?_eq_none hi] at hget
    cases hget

theorem Extends.trans (h : Extends code longer) (h' : Extends longer longest) :
    Extends code longest where
  size_le := Nat.le_trans h.size_le h'.size_le
  keeps := by
    intro i hi
    rw [h'.keeps i (Nat.lt_of_lt_of_le hi h.size_le), h.keeps i hi]
  inner := by
    intro i hi instruction hget
    by_cases hlonger : i < longer.size
    · rw [h'.keeps i hlonger] at hget
      exact h.inner i hi instruction hget
    · exact h'.inner i (Nat.le_of_not_lt hlonger) instruction hget

theorem Continues.trans (h : Continues code answer) {answer' : Nat × Code}
    (h' : Continues answer.2 answer') : Continues code answer' where
  code_extends := h.code_extends.trans h'.code_extends
  start_ne := h'.start_ne

theorem Continues.size_ne (h : Continues code answer) (hcode : code.size ≠ 0) :
    answer.2.size ≠ 0 := by
  have hle := h.code_extends.size_le
  omega

theorem getElem?_push_of_ne {i : Nat} (hi : i ≠ code.size) (instruction : Instruction) :
    (code.push instruction)[i]? = code[i]? := by
  rw [Array.getElem?_push, if_neg hi]

theorem continues_emit (hcode : code.size ≠ 0) (hi : i.IsInner) : Continues code (emit code i) where
  code_extends :=
    { size_le := by simp [emit]
      keeps := fun k hk => getElem?_push_of_ne (by omega) i
      inner := by
        intro k hk instruction hget
        by_cases hlast : k = code.size
        · obtain rfl : i = instruction := by simpa [emit, hlast] using hget
          exact hi
        · have hnone := getElem?_push_of_ne hlast i
          rw [Array.getElem?_eq_none hk] at hnone
          change (code.push i)[k]? = some instruction at hget
          rw [hnone] at hget
          cases hget }
  start_ne := hcode

/-- A jump that is written once the place behind it is known. -/
theorem continues_set (hnext : next ≠ 0) (h : Continues (code.push .accept) answer)
    (hi : i.IsInner) : Continues code (next, answer.2.set! code.size i) where
  code_extends := by
    have hsize : code.size + 1 ≤ answer.2.size := by simpa using h.code_extends.size_le
    refine ⟨by simp; omega, fun k hk => ?_, fun k hk instruction hget => ?_⟩
    · rw [Array.set!_eq_setIfInBounds, Array.getElem?_setIfInBounds_ne (by omega),
        h.code_extends.keeps k (by simp; omega), getElem?_push_of_ne (by omega)]
    · by_cases hlast : k = code.size
      · obtain rfl : i = instruction := by
          rw [hlast, Array.set!_eq_setIfInBounds,
            Array.getElem?_setIfInBounds_self_of_lt hsize] at hget
          exact Option.some.inj hget
        exact hi
      · rw [Array.set!_eq_setIfInBounds, Array.getElem?_setIfInBounds_ne (Ne.symm hlast)] at hget
        exact h.code_extends.inner k (by simp; omega) instruction hget
  start_ne := hnext

/-! ## Compiled expressions -/

theorem isInner_char (set : Unicode.Ranges) (hnext : next ≠ 0) :
    (Instruction.char set next).IsInner := by
  simp [Instruction.IsInner, Instruction.targets, Ne.symm hnext]

theorem isInner_place (p : Place) (hnext : next ≠ 0) : (Instruction.place p next).IsInner := by
  simp [Instruction.IsInner, Instruction.targets, Ne.symm hnext]

theorem isInner_save (slot : Nat) (hnext : next ≠ 0) : (Instruction.save slot next).IsInner := by
  simp [Instruction.IsInner, Instruction.targets, Ne.symm hnext]

theorem isInner_fork {first second : Nat} (hfirst : first ≠ 0) (hsecond : second ≠ 0) :
    (Instruction.fork first second).IsInner := by
  simp [Instruction.IsInner, Instruction.targets, Ne.symm hfirst, Ne.symm hsecond]

theorem isInner_loopFork (greedy : Bool) {again out : Nat} (hagain : again ≠ 0) (hout : out ≠ 0) :
    (loopFork greedy again out).IsInner := by
  cases greedy with
  | true => exact isInner_fork hagain hout
  | false => exact isInner_fork hout hagain

/-- What continues the code step by step continues it as a whole. -/
theorem continues_foldl {α : Type} {step : Nat × Code → α → Nat × Code} (hcode : code.size ≠ 0)
    (hstep : ∀ answer a, answer.1 ≠ 0 → answer.2.size ≠ 0 → Continues answer.2 (step answer a))
    (items : List α) (h : Continues code answer) : Continues code (items.foldl step answer) := by
  induction items generalizing answer with
  | nil => exact h
  | cons a items ih => exact ih (h.trans (hstep answer a h.start_ne (h.size_ne hcode)))

theorem Syntax.continues_compile (s : Syntax) (hnext : next ≠ 0) (hcode : code.size ≠ 0) :
    Continues code (s.compile next code) := by
  have hself : Continues code (next, code) := ⟨.refl code, hnext⟩
  induction s generalizing next code with
  | empty => exact hself
  | char set => exact continues_emit hcode (isInner_char set.table hnext)
  | place p => exact continues_emit hcode (isInner_place p hnext)
  | seq a b iha ihb =>
      have hb := ihb hnext hcode hself
      exact hb.trans (iha hb.start_ne (hb.size_ne hcode) ⟨.refl _, hb.start_ne⟩)
  | alt a b iha ihb =>
      have hb := ihb hnext hcode hself
      have ha := hb.trans (iha hnext (hb.size_ne hcode) ⟨.refl _, hnext⟩)
      exact ha.trans (continues_emit (ha.size_ne hcode) (isInner_fork ha.start_ne hb.start_ne))
  | group index inner ih =>
      have hclose := continues_emit hcode (isInner_save (2 * index + 1) hnext)
      have hinner := hclose.trans
        (ih hclose.start_ne (hclose.size_ne hcode) ⟨.refl _, hclose.start_ne⟩)
      exact hinner.trans
        (continues_emit (hinner.size_ne hcode) (isInner_save (2 * index) hinner.start_ne))
  | repeated inner least most greedy ih =>
      have hcopy : ∀ (answer : Nat × Code) (_ : Nat), answer.1 ≠ 0 → answer.2.size ≠ 0 →
          Continues answer.2 (inner.compile answer.1 answer.2) :=
        fun answer _ hstart hsize => ih hstart hsize ⟨.refl _, hstart⟩
      cases most with
      | some most =>
          refine continues_foldl hcode hcopy _
            (continues_foldl hcode (fun answer _ hstart hsize => ?_) _ hself)
          have hinner := ih hstart hsize ⟨.refl _, hstart⟩
          exact hinner.trans (continues_emit (hinner.size_ne hsize)
            (isInner_loopFork greedy hinner.start_ne hnext))
      | none =>
          -- the loop goes back to an instruction whose target is known afterwards
          have hpushed : (code.push .accept).size ≠ 0 := by simp
          have hinner := ih hcode hpushed ⟨.refl _, hcode⟩
          have hfork := isInner_loopFork greedy hinner.start_ne hnext
          have hloop := continues_set hcode hinner hfork
          have hentry := hloop.trans (continues_emit (hloop.size_ne hcode) hfork)
          have hbody := continues_set hinner.start_ne hinner hfork
          simp only [Syntax.compile, emit]
          split_ifs
          · exact hentry
          · exact hloop
          · exact continues_foldl hcode hcopy _ hbody

/-! ## Whole programs -/

/-- A program that notes the start of a match first and its end last. -/
structure Pattern.Notes (pattern : Pattern) : Prop where
  opens : ∃ next, pattern.code[pattern.start]? = some (.save 0 next)
  start_ne : pattern.start ≠ 0
  groups_pos : 0 < pattern.groups
  accepts : ∀ i : Nat, pattern.code[i]? = some .accept → i = 0
  ends : ∀ (i : Nat) (instruction : Instruction), pattern.code[i]? = some instruction →
    0 ∈ instruction.targets → instruction = .save 1 0

theorem Pattern.notes_ofSyntax (s : Syntax) : (Pattern.ofSyntax s).Notes := by
  let front : Code := #[.accept, .save 1 0]
  have hinner : Continues front (s.compile 1 front) := s.continues_compile (by decide) (by decide)
  have hwhole := (hinner.trans
    (continues_emit (hinner.size_ne (by decide)) (isInner_save 0 hinner.start_ne))).code_extends
  have hcases : ∀ (i : Nat) (instruction : Instruction),
      (Pattern.ofSyntax s).code[i]? = some instruction →
      (i = 0 ∧ instruction = .accept) ∨ (i = 1 ∧ instruction = .save 1 0) ∨
        instruction.IsInner := by
    intro i instruction hget
    by_cases hfront : i < front.size
    · have hkept : front[i]? = some instruction := (hwhole.keeps i hfront).symm.trans hget
      match i, hfront with
      | 0, _ => exact .inl ⟨rfl, (Option.some.inj hkept).symm⟩
      | 1, _ => exact .inr (.inl ⟨rfl, (Option.some.inj hkept).symm⟩)
    · exact .inr (.inr (hwhole.inner i (Nat.le_of_not_lt hfront) instruction hget))
  refine ⟨⟨(s.compile 1 front).1, ?_⟩, hinner.size_ne (by decide), Nat.succ_pos _,
    fun i hi => ?_, fun i instruction hi hend => ?_⟩
  · exact Array.getElem?_push_size
  · rcases hcases i _ hi with ⟨rfl, -⟩ | ⟨-, hsave⟩ | hinner
    · rfl
    · cases hsave
    · exact absurd rfl hinner.1
  · rcases hcases i _ hi with ⟨-, rfl⟩ | ⟨-, rfl⟩ | hinner
    · simp [Instruction.targets] at hend
    · rfl
    · exact absurd hend hinner.2

end Programs

section Threads

variable {pattern : Pattern} {text : Array Char} {low position : Nat} {t : Thread}

/-- What a thread at a position has noted of a match that starts at `low` or behind it. -/
structure Noted (pattern : Pattern) (low position : Nat) (t : Thread) : Prop where
  slots_size : 2 ≤ t.slots.size
  opened : t.at_ = pattern.start ∨ ∃ a, t.slots[0]? = some (some a) ∧ low ≤ a ∧ a ≤ position
  closed : t.at_ = 0 → t.slots[1]? = some (some position)

/-- The slots of a match within a part of the text. -/
def Closed (low high : Nat) (slots : Slots) : Prop :=
  ∃ a b, slots[0]? = some (some a) ∧ slots[1]? = some (some b) ∧ low ≤ a ∧ a ≤ b ∧ b ≤ high

theorem noted_start (hpattern : pattern.Notes) :
    Noted pattern low position
      { at_ := pattern.start, slots := Array.replicate (2 * pattern.groups) none } where
  slots_size := by
    have hpos := hpattern.groups_pos
    rw [Array.size_replicate]
    omega
  opened := .inl rfl
  closed := fun hend => absurd hend hpattern.start_ne

/-- An instruction that notes nothing hands on what is noted. -/
theorem Noted.passes (hpattern : pattern.Notes) (h : Noted pattern low position t)
    {instruction : Instruction} (hget : pattern.code[t.at_]? = some instruction)
    (hnotes : ∀ slot next, instruction ≠ .save slot next) {next later : Nat}
    (hnext : next ∈ instruction.targets) (hlater : position ≤ later) :
    Noted pattern low later { t with at_ := next } where
  slots_size := h.slots_size
  opened := by
    rcases h.opened with hstart | ⟨a, hslot, hlow, ha⟩
    · obtain ⟨first, hopens⟩ := hpattern.opens
      rw [hstart, hopens] at hget
      exact absurd (Option.some.inj hget).symm (hnotes 0 first)
    · exact .inr ⟨a, hslot, hlow, Nat.le_trans ha hlater⟩
  closed := by
    rintro rfl
    exact absurd (hpattern.ends _ _ hget hnext) (hnotes 1 0)

theorem Noted.saves (hpattern : pattern.Notes) (h : Noted pattern low position t)
    {slot next : Nat} (hget : pattern.code[t.at_]? = some (.save slot next))
    (hlow : low ≤ position) :
    Noted pattern low position { at_ := next, slots := t.slots.set! slot (some position) } where
  slots_size := by simpa using h.slots_size
  opened := by
    refine .inr ?_
    by_cases hslot : slot = 0
    · have hpos : 0 < t.slots.size := Nat.lt_of_lt_of_le (by decide) h.slots_size
      refine ⟨position, ?_, hlow, Nat.le_refl _⟩
      rw [hslot, Array.set!_eq_setIfInBounds, Array.getElem?_setIfInBounds_self_of_lt hpos]
    · rcases h.opened with hstart | ⟨a, hopened, hbounds⟩
      · obtain ⟨first, hopens⟩ := hpattern.opens
        rw [hstart, hopens] at hget
        cases hget
        exact absurd rfl hslot
      · refine ⟨a, ?_, hbounds⟩
        rw [Array.set!_eq_setIfInBounds, Array.getElem?_setIfInBounds_ne hslot, hopened]
  closed := by
    rintro rfl
    obtain ⟨rfl, -⟩ := Instruction.save.inj
      (hpattern.ends _ _ hget (by simp [Instruction.targets]))
    rw [Array.set!_eq_setIfInBounds, Array.getElem?_setIfInBounds_self_of_lt h.slots_size]

theorem Noted.closes (hpattern : pattern.Notes) (h : Noted pattern low position t)
    (hget : pattern.code[t.at_]? = some .accept) {high : Nat} (hhigh : position ≤ high) :
    Closed low high t.slots := by
  have hend := hpattern.accepts _ hget
  rcases h.opened with hstart | ⟨a, hopened, hlow, ha⟩
  · exact absurd (hstart.symm.trans hend) hpattern.start_ne
  · exact ⟨a, position, hopened, h.closed hend, hlow, ha, hhigh⟩

namespace Frontier

/-- Every thread has noted what it should. -/
def AllNoted (pattern : Pattern) (low position : Nat) (frontier : Frontier) : Prop :=
  ∀ t ∈ frontier.threads, Noted pattern low position t

theorem allNoted_empty (size : Nat) : (empty size).AllNoted pattern low position := by
  intro t ht
  simp [empty] at ht

theorem AllNoted.push {frontier : Frontier} (h : frontier.AllNoted pattern low position)
    (ht : Noted pattern low position t) (visited : Array Bool) :
    AllNoted pattern low position { visited, threads := frontier.threads.push t } := by
  intro other hother
  rcases Array.mem_push.1 hother with hother | rfl
  · exact h other hother
  · exact ht

theorem AllNoted.follow (hpattern : pattern.Notes) (hlow : low ≤ position) (fuel : Nat)
    {pending : List Thread} {frontier : Frontier}
    (hpending : ∀ t ∈ pending, Noted pattern low position t)
    (h : frontier.AllNoted pattern low position) :
    (follow pattern.code text position fuel pending frontier).AllNoted pattern low position := by
  induction fuel generalizing pending frontier with
  | zero => exact h
  | succ fuel ih =>
      cases pending with
      | nil => exact h
      | cons t pending =>
          obtain ⟨ht, hpending⟩ := List.forall_mem_cons.1 hpending
          rw [Frontier.follow]
          split
          · exact ih hpending h
          · split
            next first second hget =>
              refine ih (List.forall_mem_cons.2 ⟨?_, List.forall_mem_cons.2 ⟨?_, hpending⟩⟩) h
              · exact ht.passes hpattern hget (by simp) (by simp [Instruction.targets]) (Nat.le_refl _)
              · exact ht.passes hpattern hget (by simp) (by simp [Instruction.targets]) (Nat.le_refl _)
            next p next hget =>
              split
              · refine ih (List.forall_mem_cons.2 ⟨?_, hpending⟩) h
                exact ht.passes hpattern hget (by simp) (by simp [Instruction.targets]) (Nat.le_refl _)
              · exact ih hpending h
            next slot next hget =>
              exact ih (List.forall_mem_cons.2 ⟨ht.saves hpattern hget hlow, hpending⟩) h
            next => exact ih hpending (h.push ht _)
            next => exact ih hpending (h.push ht _)
            next => exact ih hpending h

theorem AllNoted.add (hpattern : pattern.Notes) (hlow : low ≤ position) {frontier : Frontier}
    (h : frontier.AllNoted pattern low position) (ht : Noted pattern low position t) :
    (frontier.add pattern.code text position t).AllNoted pattern low position :=
  AllNoted.follow hpattern hlow _ (by simpa using ht) h

/-- What an advance leaves: noted threads at the next position, and a match. -/
theorem AllNoted.advance (hpattern : pattern.Notes) (hlow : low ≤ position) {high : Nat}
    (hhigh : position ≤ high) (c? : Option Char) {threads : List Thread} {next : Frontier}
    {found : Option Slots} (hthreads : ∀ t ∈ threads, Noted pattern low position t)
    (hnext : next.AllNoted pattern low (position + 1))
    (hfound : ∀ slots ∈ found, Closed low high slots) :
    (advance pattern.code text position c? threads next found).1.AllNoted pattern low (position + 1) ∧
      ∀ slots ∈ (advance pattern.code text position c? threads next found).2,
        Closed low high slots := by
  induction threads generalizing next with
  | nil => exact ⟨hnext, hfound⟩
  | cons t threads ih =>
      obtain ⟨ht, hthreads⟩ := List.forall_mem_cons.1 hthreads
      rw [Frontier.advance]
      split
      next hget =>
        refine ⟨hnext, fun slots hslots => ?_⟩
        cases hslots
        exact ht.closes hpattern hget hhigh
      next set after hget =>
        refine ih hthreads ?_
        split
        · exact hnext.add hpattern (Nat.le_succ_of_le hlow) (ht.passes hpattern hget (by simp)
            (by simp [Instruction.targets]) (Nat.le_succ position))
        · exact hnext
      next => exact ih hthreads hnext

end Frontier

namespace Pattern

theorem run_closed (hpattern : pattern.Notes) {fuel : Nat} (hlow : low ≤ position)
    (hfuel : position + fuel ≤ text.size + 1) {frontier : Frontier} {found : Option Slots}
    (h : frontier.AllNoted pattern low position)
    (hfound : ∀ slots ∈ found, Closed low text.size slots) :
    ∀ slots ∈ pattern.run text fuel position frontier found, Closed low text.size slots := by
  induction fuel generalizing position frontier found with
  | zero => exact hfound
  | succ fuel ih =>
      rw [run]
      split
      · exact hfound
      · have hthreads : (if found.isSome then frontier
            else frontier.add pattern.code text position
              { at_ := pattern.start, slots := Array.replicate (2 * pattern.groups) none }).AllNoted
            pattern low position := by
          split
          · exact h
          · exact h.add hpattern hlow (noted_start hpattern)
        obtain ⟨hnext, hfound⟩ := Frontier.AllNoted.advance hpattern hlow
          (show position ≤ text.size by omega) text[position]?
          (fun t ht => hthreads t (Array.mem_toList_iff.1 ht))
          (Frontier.allNoted_empty pattern.code.size) hfound
        exact ih (Nat.le_succ_of_le hlow) (by omega) hnext hfound

end Pattern

/-! ## Spans -/

/-- The whole match lies within a part of the text. -/
structure Match.Within (m : Match) (low high : Nat) : Prop where
  whole : m.groups.head? = some (some m.span)
  low_le : low ≤ m.span.1
  ordered : m.span.1 ≤ m.span.2
  le_high : m.span.2 ≤ high

theorem Closed.within {high : Nat} {slots : Slots} (h : Closed low high slots) :
    (Match.ofSlots slots).Within low high := by
  obtain ⟨a, b, hfirst, hsecond, hlow, hordered, hhigh⟩ := h
  obtain ⟨slots⟩ := slots
  match slots, hfirst, hsecond with
  | _ :: _ :: rest, hfirst, hsecond =>
      cases hfirst
      cases hsecond
      exact ⟨rfl, hlow, hordered, hhigh⟩

theorem Match.Within.group_zero {m : Match} {high : Nat} (h : m.Within low high) :
    m.group text 0 = (text.extract m.span.1 m.span.2).toList := by
  have hwhole : m.groups[0]? = some (some m.span) := by
    rw [← List.head?_eq_getElem?]
    exact h.whole
  rw [Match.group, hwhole]
  rfl

theorem Match.Within.mono {m : Match} {low' high : Nat} (h : m.Within low high) (hlow : low' ≤ low) :
    m.Within low' high :=
  ⟨h.whole, Nat.le_trans hlow h.low_le, h.ordered, h.le_high⟩

theorem Pattern.matchFrom?_within (hpattern : pattern.Notes) {m : Match}
    (h : pattern.search.matchFrom? text position = some m) : m.Within position text.size := by
  obtain ⟨slots, hslots, rfl⟩ := Option.map_eq_some_iff.1 h
  rw [findFrom?] at hslots
  by_cases hposition : position ≤ text.size
  · exact (run_closed hpattern (Nat.le_refl _) (by omega) (Frontier.allNoted_empty _)
      (by simp) slots hslots).within
  · rw [Nat.sub_eq_zero_of_le (by omega), run] at hslots
    cases hslots

theorem Pattern.notes_of_parse? {source : String} (h : parse? source = some pattern) :
    pattern.Notes := by
  rw [parse?] at h
  split at h
  · split at h
    · cases h
    · cases h
      exact notes_ofSyntax _
  · cases h

end Threads

/-! ## Searches -/

section Searches

variable {search : Search} {text : Array Char} {position : Nat}

/-- A search finds matches in the text, at the position it starts from or behind it. -/
def Search.Lawful (search : Search) : Prop :=
  ∀ (text : Array Char) (position : Nat) (m : Match),
    search.matchFrom? text position = some m → m.Within position text.size

/-- What is relied on of an engine. -/
structure Engine.Lawful (engine : Engine) : Prop where
  /-- The empty text is a pattern. -/
  empty : engine.search? "" ≠ none
  search : ∀ {source : String} {search : Search}, engine.search? source = some search →
    search.Lawful

theorem programs_lawful : programs.Lawful where
  empty := by
    decide
  search h := by
    obtain ⟨pattern, hparse, rfl⟩ := Option.map_eq_some_iff.1 h
    exact fun text position m hm =>
      Pattern.matchFrom?_within (Pattern.notes_of_parse? hparse) hm

/-- Matches that follow each other behind a position, up to the last one there is. -/
inductive Successive (search : Search) (text : Array Char) : Nat → List Match → Prop
  | last {position : Nat} (hnone : search.matchAfter? text position = none) :
      Successive search text position []
  | next {position : Nat} {m : Match} {rest : List Match}
      (hmatch : search.matchAfter? text position = some m)
      (hrest : Successive search text m.span.2 rest) :
      Successive search text position (m :: rest)

/-- All matches of a text: the first one there is, and those that follow it. -/
def AllMatches (search : Search) (text : Array Char) : List Match → Prop
  | [] => search.matchFrom? text 0 = none
  | m :: rest => search.matchFrom? text 0 = some m ∧ Successive search text m.span.2 rest

namespace Search

theorem Lawful.matchAfter?_within (hsearch : search.Lawful) {m : Match}
    (h : search.matchAfter? text position = some m) :
    m.Within position text.size ∧ position < m.span.2 := by
  rw [matchAfter?] at h
  split at h
  next first hfirst =>
    have hwithin := hsearch _ _ _ hfirst
    split at h
    · split at h
      · have hnext := hsearch _ _ _ h
        have hlow := hnext.low_le
        have hordered := hnext.ordered
        exact ⟨hnext.mono (Nat.le_succ position), by omega⟩
      · cases h
    next hspan =>
      cases h
      have hlow := hwithin.low_le
      have hordered := hwithin.ordered
      refine ⟨hwithin, ?_⟩
      by_contra hend
      exact hspan (Prod.ext (by omega) (by omega))
  · cases h

theorem Lawful.successive_matchesAfter (hsearch : search.Lawful) {fuel : Nat}
    (hfuel : text.size - position < fuel) :
    Successive search text position (search.matchesAfter text fuel position) := by
  induction fuel generalizing position with
  | zero => exact absurd hfuel (Nat.not_lt_zero _)
  | succ fuel ih =>
      cases hmatch : search.matchAfter? text position with
      | none =>
          rw [matchesAfter, hmatch]
          exact .last hmatch
      | some m =>
          obtain ⟨hwithin, hbehind⟩ := hsearch.matchAfter?_within hmatch
          have hend := hwithin.le_high
          rw [matchesAfter, hmatch]
          exact .next hmatch (ih (by omega))

theorem Lawful.allMatches_matchesIn (hsearch : search.Lawful) (text : Array Char) :
    AllMatches search text (search.matchesIn text) := by
  cases hfirst : search.matchFrom? text 0 with
  | none =>
      rw [matchesIn, hfirst]
      exact hfirst
  | some m =>
      rw [matchesIn, hfirst]
      exact ⟨hfirst, hsearch.successive_matchesAfter (by omega)⟩

end Search

end Searches

end BookRules.Regex
