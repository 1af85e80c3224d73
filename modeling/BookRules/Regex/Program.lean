import BookRules.Regex.Parser

/-!
# Matching programs

An expression becomes a program for a machine with many threads: instructions
that pass over a character, fork, test a place or note a position.  Of two
targets of a fork the first is preferred.

A repetition of something that can be empty is entered through a fork of its
own, so that the preference for going round again does not depend on where the
loop was entered.
-/

namespace BookRules.Regex

/-- An instruction; the numbers are places in the program. -/
inductive Instruction
  | char (set : Unicode.Ranges) (next : Nat)
  | fork (first second : Nat)
  | place (p : Place) (next : Nat)
  /-- Note the position in a slot. -/
  | save (slot next : Nat)
  | accept

/-- Instructions that are written from the end of an expression to its start. -/
abbrev Code :=
  Array Instruction

/-- Add an instruction; the answer is its place. -/
def emit (code : Code) (i : Instruction) : Nat × Code :=
  (code.size, code.push i)

/-- A fork that prefers to go round again, or not to. -/
def loopFork (greedy : Bool) (again out : Nat) : Instruction :=
  if greedy then .fork again out else .fork out again

namespace Syntax

/-- Write the code of an expression that goes on at `next`.  The answer is where
it starts. -/
def compile : Syntax → Nat → Code → Nat × Code
  | .empty, next, code => (next, code)
  | .char set, next, code => emit code (.char set.table next)
  | .place p, next, code => emit code (.place p next)
  | .seq a b, next, code =>
    let (middle, code) := b.compile next code
    a.compile middle code
  | .alt a b, next, code =>
    let (second, code) := b.compile next code
    let (first, code) := a.compile next code
    emit code (.fork first second)
  | .group index inner, next, code =>
    let (close, code) := emit code (.save (2 * index + 1) next)
    let (start, code) := inner.compile close code
    emit code (.save (2 * index) start)
  | .repeated inner least most greedy, next, code =>
    let copies (n : Nat) (next : Nat) (code : Code) : Nat × Code :=
      (List.range n).foldl (fun (next, code) _ => inner.compile next code) (next, code)
    match most with
    | some most =>
      let (optional, code) := (List.range (most - least)).foldl (fun (after, code) _ =>
        let (start, code) := inner.compile after code
        emit code (loopFork greedy start next)) (next, code)
      copies least optional code
    | none =>
      let (again, code) := emit code .accept
      let (start, code) := inner.compile again code
      let code := code.set! again (loopFork greedy start next)
      if least == 0 then
        if inner.leastLength == 0 then emit code (loopFork greedy start next) else (again, code)
      else
        copies (least - 1) start code

end Syntax

/-- A program and where it starts. -/
structure Pattern where
  code : Code
  start : Nat
  /-- The number of groups, with the whole match. -/
  groups : Nat

namespace Pattern

/-- The space that a program may take, in bytes. -/
def maxWeight : Nat :=
  10 * 1024 * 1024

/-- The program of an expression. -/
def ofSyntax (s : Syntax) : Pattern :=
  let (start, code) := (Syntax.group 0 s).compile 0 #[.accept]
  { code, start, groups := s.lastGroup + 1 }

/-- Read a pattern.  Patterns that are too large by the measure of this engine are
refused like ones that cannot be read. -/
def parse? (text : String) : Option Pattern :=
  match Syntax.parse? text with
  | some s => if maxWeight < s.weight then none else some (ofSyntax s)
  | none => none

end Pattern

end BookRules.Regex
