import BookRules.Proofs.Rule.BalancedTexts
import BookRules.Proofs.Text.Cuttings

/-!
# Placeholders

A substitution tries the occurrences of its marker from left to right.  Where no span starts
nothing is looked up; where one starts the text between its braces is looked up, and a value
takes the place of the whole span.  The next occurrence is looked for behind the span that was
replaced, otherwise behind the marker, so what was put in is never looked at.

The trials of a substitution are a run over the places of the text as it was given, and the
text that comes out is that text with a value for each span that has one.  The run is found
by following the walk over the characters: it passes over the gap in front of the first
occurrence, and at an occurrence it does one of three things.

As many bytes as the marker starts with braces are cut off at either end of a span.  At the
front these are the braces; at the end they reach back from the brace that closes the span,
whatever stands there.
-/

namespace BookRules.Rule

variable {σ : Type}

/-! ## Trials -/

/-- A lookup: where its span ends, the text it asks for, and the answer. -/
structure Call where
  stop : Nat
  inner : String
  answer? : Option String

/-- An occurrence of the marker that is tried; nothing is looked up where no span starts. -/
structure Trial where
  start : Nat
  call? : Option Call

/-- A span and the value that takes its place. -/
structure Splice where
  start : Nat
  stop : Nat
  value : String

namespace Trial

/-- The span that is replaced, if there is a value for it. -/
def splice? (trial : Trial) : Option Splice :=
  match trial.call? with
  | some ⟨stop, _, some value⟩ => some ⟨trial.start, stop, value⟩
  | _ => none

/-- Where the search goes on: behind the span that is replaced, otherwise behind the marker. -/
def next (marker : String) (trial : Trial) : Nat :=
  match trial.splice? with
  | some splice => splice.stop
  | none => trial.start + marker.utf8ByteSize

/-- What a trial does: the span from its place on, if there is one, without the braces of the
marker at either end, is looked up. -/
def Made (text marker : String) (resolve : Resolver σ) (trial : Trial) (state state' : σ) : Prop :=
  match trial.call? with
  | none =>
    findBalanced text trial.start '\x7b' '\x7d' .script = none ∧ state' = state
  | some call =>
    findBalanced text trial.start '\x7b' '\x7d' .script = some call.stop ∧
      Text.StandsBetween text (trial.start + bracesOf marker) (call.stop - bracesOf marker)
        call.inner ∧
      resolve call.inner state = (call.answer?, state')

end Trial

def splices (trials : List Trial) : List Splice :=
  trials.filterMap Trial.splice?

def OccursAt (marker text : String) (start : Nat) : Prop :=
  Text.StandsBetween text start (start + marker.utf8ByteSize) marker

/-- The first occurrence from a place on. -/
structure IsFirst (marker text : String) (place start : Nat) : Prop where
  occurs : OccursAt marker text start
  le : place ≤ start
  le_of_occurs : ∀ other, place ≤ other → OccursAt marker text other → start ≤ other

/-- Trials one after the other, each at the first occurrence from where the one before left
off, with the state of the lookup handed on. -/
inductive Trials (text marker : String) (resolve : Resolver σ) :
    Nat → σ → List Trial → Nat → σ → Prop
  | done {place : Nat} {state : σ} : Trials text marker resolve place state [] place state
  | trial {place stop : Nat} {state state' last : σ} {trial : Trial} {more : List Trial}
      (hfirst : IsFirst marker text place trial.start)
      (hmade : trial.Made text marker resolve state state')
      (hmore : Trials text marker resolve (trial.next marker) state' more stop last) :
      Trials text marker resolve place state (trial :: more) stop last

/-- The text from a place on, with the value of each span in its place. -/
inductive Spliced (text : String) : Nat → List Splice → String → Prop
  | rest {place : Nat} {out : String}
      (hrest : Text.StandsBetween text place text.utf8ByteSize out) : Spliced text place [] out
  | splice {place : Nat} {gap out : String} {splice : Splice} {more : List Splice}
      (hgap : Text.StandsBetween text place splice.start gap)
      (hmore : Spliced text splice.stop more out) :
      Spliced text place (splice :: more) (gap ++ splice.value ++ out)

/-- No whole characters stand between the two cuts of a span. -/
def CutInside (text marker : String) (start stop : Nat) : Prop :=
  ∀ inner, ¬ Text.StandsBetween text (start + bracesOf marker) (stop - bracesOf marker) inner

/-! ## The span at an occurrence -/

section Spans

variable {text marker inner : String} {k : Nat} {here front tail after body : List Char}

theorem exists_of_bracesOf (marker : String) :
    ∃ rest, List.replicate (bracesOf marker) '\x7b' ++ rest = marker.toList := by
  refine ⟨marker.toList.dropWhile (· == '\x7b'), ?_⟩
  have hall : marker.toList.takeWhile (· == '\x7b') =
      List.replicate (bracesOf marker) '\x7b' := by
    refine List.eq_replicate_of_mem fun c hc => ?_
    simpa using List.all_eq_true.1 List.all_takeWhile c hc
  rw [← hall, List.takeWhile_append_dropWhile]

theorem afterBalanced?_replicate (k depth : Nat) (cs : List Char) :
    afterBalanced? .script '\x7b' '\x7d' depth 0 (List.replicate k '\x7b' ++ cs) =
      afterBalanced? .script '\x7b' '\x7d' (depth + k) 0 cs := by
  induction k generalizing depth with
  | zero => rfl
  | succ k ih =>
      have hopen : turn .script '\x7b' '\x7d' depth 0 '\x7b' = some (depth + 1, 0) := rfl
      rw [List.replicate_succ, List.cons_append,
        afterBalanced?_turn (by decide) (span?_of_not_isQuote rfl) hopen, ih, Nat.add_assoc,
        Nat.add_comm 1 k]

/-- The span at an occurrence has the braces of the marker in front and is long enough for as
many at its end. -/
theorem exists_span (hmark : marker.toList <+: here)
    (h : afterBalanced? .script '\x7b' '\x7d' 0 0 here = some after) :
    ∃ body, List.replicate (bracesOf marker) '\x7b' ++ (body ++ ['\x7d']) ++ after = here ∧
      bracesOf marker ≤ Text.byteCount (body ++ ['\x7d']) := by
  obtain ⟨rest, hrest⟩ := exists_of_bracesOf marker
  obtain ⟨behind, rfl⟩ := hmark
  -- behind the braces of the marker as many brackets are open, so as many characters follow
  rw [← hrest, List.append_assoc, afterBalanced?_replicate] at h
  obtain ⟨body, hbody, hdepth, -⟩ := exists_of_afterBalanced? h
  refine ⟨body, by simp [← hrest, ← hbody], ?_⟩
  have hlength := Text.length_le_byteCount (body ++ ['\x7d'])
  simp only [List.length_append, List.length_singleton] at hlength
  omega

theorem braced?_eq_some
    (hhere : List.replicate k '\x7b' ++ (body ++ ['\x7d']) ++ after = here)
    (hlong : k ≤ Text.byteCount (body ++ ['\x7d']))
    (h : afterBalanced? .script '\x7b' '\x7d' 0 0 here = some after) :
    braced? k here = some (List.replicate k '\x7b' ++ (body ++ ['\x7d']), after) := by
  have hspan : here.take (here.length - after.length) =
      List.replicate k '\x7b' ++ (body ++ ['\x7d']) := by
    rw [← List.append_left_inj after,
      List.suffix_iff_eq_append.1 (isSuffix_of_afterBalanced? h), hhere]
  have hguard : 2 * k ≤
      Text.byteCount (List.replicate k '\x7b' ++ (body ++ ['\x7d'])) := by
    rw [Text.byteCount_append, Text.byteCount_replicate k rfl]
    omega
  simp only [braced?, h, hspan, hguard, if_true]

theorem innerText?_eq_some_iff : innerText? k (List.replicate k '\x7b' ++ tail) = some inner ↔
    ∃ back, inner.toList ++ back = tail ∧ Text.byteCount back = k := by
  have hdrop : (List.replicate k '\x7b' ++ tail).drop k = tail := by simp
  rw [innerText?, hdrop, Option.map_eq_some_iff]
  constructor
  · rintro ⟨left, hleft, rfl⟩
    obtain ⟨front, hfront, hsize⟩ := Text.dropBytes?_eq_some_iff.1 hleft
    refine ⟨front.reverse, ?_, by rw [Text.byteCount_reverse, hsize]⟩
    rw [String.toList_ofList, ← List.reverse_append, hfront, List.reverse_reverse]
  · rintro ⟨back, rfl, hsize⟩
    refine ⟨inner.toList.reverse, Text.dropBytes?_eq_some_iff.2 ⟨back.reverse, ?_, ?_⟩, ?_⟩
    · rw [← List.reverse_append]
    · rw [Text.byteCount_reverse, hsize]
    · rw [List.reverse_reverse, String.ofList_toList]

theorem standsBetween_inner_iff
    (htext : front ++ (List.replicate k '\x7b' ++ tail) ++ after = text.toList)
    (hlong : k ≤ Text.byteCount tail) :
    Text.StandsBetween text (Text.byteCount front + k)
        (Text.byteCount (front ++ (List.replicate k '\x7b' ++ tail)) - k) inner ↔
      innerText? k (List.replicate k '\x7b' ++ tail) = some inner := by
  have hopening : Text.byteCount (List.replicate k '\x7b') = k := Text.byteCount_replicate k rfl
  rw [Text.standsBetween_iff, innerText?_eq_some_iff]
  simp only [Text.byteCount_append, hopening]
  constructor
  · rintro ⟨front', back', htext', hstart, hstop⟩
    have hsame : front' ++ (inner.toList ++ back') =
        front ++ List.replicate k '\x7b' ++ (tail ++ after) := by
      rw [← List.append_assoc, htext', ← htext]
      simp
    -- the piece starts behind the opening braces and is too short to leave the span
    obtain ⟨rfl, hrest⟩ := Text.append_inj_of_byteCount_eq hsame (by simp [hstart, hopening])
    have hfront : inner.toList <+: tail ++ after := ⟨back', hrest⟩
    obtain ⟨back, rfl⟩ : inner.toList <+: tail :=
      Text.isPrefix_of_byteCount_le hfront (List.prefix_append tail after) (by omega)
    refine ⟨back, rfl, ?_⟩
    simp only [Text.byteCount_append] at hstop hlong
    omega
  · rintro ⟨back, rfl, hsize⟩
    refine ⟨front ++ List.replicate k '\x7b', back ++ after, by simpa using htext,
      by simp [hopening], ?_⟩
    simp only [Text.byteCount_append, hopening]
    omega

theorem exists_braced (htext : front ++ here = text.toList) (hmark : marker.toList <+: here)
    (h : afterBalanced? .script '\x7b' '\x7d' 0 0 here = some after) :
    ∃ span, span ++ after = here ∧ span ≠ [] ∧
      braced? (bracesOf marker) here = some (span, after) ∧
      findBalanced text (Text.byteCount front) '\x7b' '\x7d' .script =
        some (Text.byteCount (front ++ span)) ∧
      ∀ inner, innerText? (bracesOf marker) span = some inner ↔
        Text.StandsBetween text (Text.byteCount front + bracesOf marker)
          (Text.byteCount (front ++ span) - bracesOf marker) inner := by
  obtain ⟨body, hhere, hlong⟩ := exists_span hmark h
  have htext' : front ++ (List.replicate (bracesOf marker) '\x7b' ++ (body ++ ['\x7d'])) ++ after =
      text.toList := by
    rw [List.append_assoc, hhere, htext]
  exact ⟨_, hhere, by simp, braced?_eq_some hhere hlong h,
    findBalanced_eq_some htext' (by rw [hhere, h]),
    fun inner => (standsBetween_inner_iff htext' hlong).symm⟩

end Spans

/-! ## The walk over the characters -/

def Marked (marker : List Char) (_ : Unit) (cs after : List Char) : Prop :=
  marker ++ after = cs

theorem takesOff_marked {marker : List Char} (hmarker : marker ≠ []) :
    Text.TakesOff (Marked marker) := by
  rintro - cs after rfl
  obtain ⟨c, rest, rfl⟩ := List.exists_cons_of_ne_nil hmarker
  exact ⟨c, rest ++ after, rfl, List.suffix_append rest after⟩

section Walk

variable {marker : List Char} {braces : Nat} {resolve : Resolver σ} {state : σ}
  {gap cs rest : List Char}

theorem Substitution.keep_nil (done : Substitution σ) : done.keep [] = done :=
  rfl

theorem Substitution.keep_keep (front more : List Char) (done : Substitution σ) :
    (done.keep more).keep front = done.keep (front ++ more) := by
  simp [keep]

theorem substituteFrom_skip (skip : Nat) (cs : List Char) :
    substituteFrom marker braces resolve skip 0 cs state =
      substituteFrom marker braces resolve 0 0 (cs.drop skip) state := by
  induction cs generalizing skip with
  | nil => simp [substituteFrom]
  | cons c rest ih =>
      cases skip with
      | zero => rfl
      | succ skip => exact ih skip

theorem substituteFrom_keep (front rest : List Char) :
    substituteFrom marker braces resolve 0 front.length (front ++ rest) state =
      (substituteFrom marker braces resolve 0 0 rest state).map (·.keep front) := by
  induction front with
  | nil => simp [Substitution.keep_nil]
  | cons c front ih =>
      rw [List.length_cons, List.cons_append, substituteFrom, ih, Option.map_map]
      simp only [Function.comp_def, Substitution.keep_keep, List.singleton_append]

theorem substituteFrom_gap (hgap : Text.IsGap (Marked marker) gap cs) :
    substituteFrom marker braces resolve 0 0 (gap ++ cs) state =
      (substituteFrom marker braces resolve 0 0 cs state).map (·.keep gap) := by
  induction gap with
  | nil => simp [Substitution.keep_nil]
  | cons c gap ih =>
      obtain ⟨hhere, hlater⟩ := Text.isGap_cons_iff.1 hgap
      have hnone : ¬ marker.isPrefixOf (c :: (gap ++ cs)) = true := by
        intro hmark
        obtain ⟨after, hafter⟩ := List.isPrefixOf_iff_prefix.1 hmark
        exact hhere () after hafter
      rw [List.cons_append, substituteFrom, if_neg hnone, ih hlater, Option.map_map]
      simp only [Function.comp_def, Substitution.keep_keep, List.singleton_append]

/-- Where the marker does not occur nothing is looked up. -/
theorem substituteFrom_of_not_isInfix (h : ¬ marker <:+: cs) :
    substituteFrom marker braces resolve 0 0 cs state = some ⟨cs, false, state⟩ := by
  have hgap : Text.IsGap (Marked marker) cs [] := by
    intro tail htail _ _ after hmark
    have hfront : marker <+: tail := ⟨after, by rw [hmark, List.append_nil]⟩
    exact h (hfront.isInfix.trans htail.isInfix)
  have hwalk : substituteFrom marker braces resolve 0 0 (cs ++ []) state =
      (substituteFrom marker braces resolve 0 0 [] state).map (·.keep cs) :=
    substituteFrom_gap hgap
  simpa [substituteFrom, Substitution.keep] using hwalk

theorem substituteFrom_marked (hmarker : marker ≠ []) (hmark : marker ++ rest = cs) :
    substituteFrom marker braces resolve 0 0 cs state =
      let stay (state : σ) :=
        (substituteFrom marker braces resolve 0 0 rest state).map (·.keep marker)
      (braced? braces cs).elim (stay state) fun found =>
        (innerText? braces found.1).bind fun inner =>
          let answer := resolve inner state
          answer.1.elim (stay answer.2) fun value =>
            (substituteFrom marker braces resolve 0 0 found.2 answer.2).map (·.put value) := by
  obtain ⟨c, marked, rfl⟩ := List.exists_cons_of_ne_nil hmarker
  subst hmark
  have hprefix : (c :: marked).isPrefixOf (c :: (marked ++ rest)) = true := by simp
  have hstay : ∀ state, (substituteFrom (c :: marked) braces resolve 0 marked.length
      (marked ++ rest) state).map (·.keep [c]) =
        (substituteFrom (c :: marked) braces resolve 0 0 rest state).map
          (·.keep (c :: marked)) := by
    intro state
    rw [substituteFrom_keep, Option.map_map]
    simp only [Function.comp_def, Substitution.keep_keep, List.singleton_append]
  rw [List.cons_append, substituteFrom, if_pos hprefix, List.length_cons, Nat.add_sub_cancel]
  simp only [hstay]
  cases hspan : braced? braces (c :: (marked ++ rest)) with
  | none => rfl
  | some found =>
      obtain ⟨span, after⟩ := found
      have hbehind : after <:+ marked ++ rest :=
        isSuffix_tail_of_afterBalanced? (afterBalanced?_of_braced? hspan).1
      cases hinner : innerText? braces span with
      | none => simp [hinner]
      | some inner =>
          rcases hanswer : resolve inner state with ⟨_ | value, state'⟩
          · simp [hinner, hanswer]
          · simp only [hinner, hanswer, Option.elim_some, Option.bind_some]
            rw [substituteFrom_skip, Text.drop_eq_of_isSuffix hbehind]

end Walk

theorem substitute_of_not_isInfix {text marker : String} (h : ¬ marker.toList <:+: text.toList)
    (resolve : String → Option String) : substitute text marker resolve = (none, []) := by
  unfold substitute substitute? substituteWith?
  split
  next => rfl
  next =>
    rw [substituteFrom_of_not_isInfix h]
    rfl

/-! ## The run -/

/-- What the trials from a place on come to.  Either no occurrence is left, and the text is put
together; or the next span is cut inside a character, and there is no text. -/
inductive Outcome (text marker : String) (resolve : Resolver σ) (place : Nat) (state : σ) :
    Option (Substitution σ) → Prop
  | finished {trials : List Trial} {stop : Nat} {last : σ} {out : String}
      (htrials : Trials text marker resolve place state trials stop last)
      (hnone : ∀ other, stop ≤ other → ¬ OccursAt marker text other)
      (hout : Spliced text place (splices trials) out) :
      Outcome text marker resolve place state
        (some ⟨out.toList, !(splices trials).isEmpty, last⟩)
  | brokenOff {trials : List Trial} {stop start bound : Nat} {last : σ}
      (htrials : Trials text marker resolve place state trials stop last)
      (hfirst : IsFirst marker text stop start)
      (hspan : findBalanced text start '\x7b' '\x7d' .script = some bound)
      (hcut : CutInside text marker start bound) :
      Outcome text marker resolve place state none

section Run

variable {text marker gap : String} {resolve : Resolver σ} {place : Nat} {state state' : σ}
  {trial : Trial} {found : Option (Substitution σ)}

theorem Spliced.extend {middle : Nat} {more : List Splice} {out : String}
    (hgap : Text.StandsBetween text place middle gap) (h : Spliced text middle more out) :
    Spliced text place more (gap ++ out) := by
  cases h with
  | rest hrest => exact .rest (hgap.append hrest)
  | splice hmiddle hmore =>
      rw [← String.append_assoc, ← String.append_assoc]
      exact .splice (hgap.append hmiddle) hmore

theorem Outcome.stay (hfirst : IsFirst marker text place trial.start)
    (hmade : trial.Made text marker resolve state state') (hsplice : trial.splice? = none)
    (hgap : Text.StandsBetween text place (trial.next marker) gap)
    (h : Outcome text marker resolve (trial.next marker) state' found) :
    Outcome text marker resolve place state (found.map (·.keep gap.toList)) := by
  cases h with
  | @finished trials stop last out htrials hnone hout =>
      have hsame : splices (trial :: trials) = splices trials :=
        List.filterMap_cons_none hsplice
      have hall : Outcome text marker resolve place state
          (some ⟨(gap ++ out).toList, !(splices (trial :: trials)).isEmpty, last⟩) :=
        .finished (.trial hfirst hmade htrials) hnone (by rw [hsame]; exact hout.extend hgap)
      rw [hsame, String.toList_append] at hall
      exact hall
  | brokenOff htrials hnext hspan hcut =>
      exact .brokenOff (.trial hfirst hmade htrials) hnext hspan hcut

theorem Outcome.put {splice : Splice} (hfirst : IsFirst marker text place trial.start)
    (hmade : trial.Made text marker resolve state state') (hsplice : trial.splice? = some splice)
    (hgap : Text.StandsBetween text place splice.start gap)
    (h : Outcome text marker resolve splice.stop state' found) :
    Outcome text marker resolve place state
      ((found.map (·.put splice.value)).map (·.keep gap.toList)) := by
  have hnext : trial.next marker = splice.stop := by rw [Trial.next, hsplice]
  rw [← hnext] at h
  cases h with
  | @finished trials stop last out htrials hnone hout =>
      have hmore : splices (trial :: trials) = splice :: splices trials :=
        List.filterMap_cons_some hsplice
      rw [hnext] at hout
      have hall : Outcome text marker resolve place state
          (some ⟨(gap ++ splice.value ++ out).toList, !(splices (trial :: trials)).isEmpty, last⟩) :=
        .finished (.trial hfirst hmade htrials) hnone (by rw [hmore]; exact .splice hgap hout)
      rw [hmore, String.toList_append, String.toList_append, List.append_assoc] at hall
      exact hall
  | brokenOff htrials hlater hspan hcut =>
      exact .brokenOff (.trial hfirst hmade htrials) hlater hspan hcut

theorem le_of_occursAt {front gap cs : List Char} {other : Nat}
    (htext : front ++ gap ++ cs = text.toList) (hgap : Text.IsGap (Marked marker.toList) gap cs)
    (hle : Text.byteCount front ≤ other) (h : OccursAt marker text other) :
    Text.byteCount (front ++ gap) ≤ other := by
  obtain ⟨front', back, htext', rfl, -⟩ := Text.standsBetween_iff.1 h
  -- an occurrence further in front would start inside the gap
  by_contra hlt
  have hprefix : front' <+: text.toList := ⟨marker.toList ++ back, by simpa using htext'⟩
  have hfront : front <+: text.toList := ⟨gap ++ cs, by simpa using htext⟩
  have hboth : front ++ gap <+: text.toList := ⟨cs, htext⟩
  obtain ⟨passed, rfl⟩ := Text.isPrefix_of_byteCount_le hfront hprefix hle
  obtain ⟨tail, htail⟩ := Text.isPrefix_of_byteCount_le hprefix hboth (by omega)
  rw [List.append_assoc, List.append_cancel_left_eq] at htail
  subst htail
  have hne : tail ≠ [] := by
    rintro rfl
    simp at hlt
  refine hgap tail (List.suffix_append passed tail) hne () back ?_
  rw [Marked, ← List.append_right_inj (front ++ passed)]
  simpa using htext'.trans htext.symm

theorem isFirst_of_isGap {front gap cs back : List Char} (htext : front ++ gap ++ cs = text.toList)
    (hgap : Text.IsGap (Marked marker.toList) gap cs) (hmark : marker.toList ++ back = cs) :
    IsFirst marker text (Text.byteCount front) (Text.byteCount (front ++ gap)) where
  occurs := by
    refine Text.standsBetween_iff.2 ⟨front ++ gap, back, ?_, rfl, ?_⟩
    · rw [List.append_assoc, hmark, htext]
    · simp [Nat.add_assoc]
  le := by simp
  le_of_occurs _ hle h := le_of_occursAt htext hgap hle h

theorem not_occursAt_of_isGap {front gap : List Char} {other : Nat} (hmarker : marker ≠ "")
    (htext : front ++ gap = text.toList) (hgap : Text.IsGap (Marked marker.toList) gap [])
    (hle : Text.byteCount front ≤ other) : ¬ OccursAt marker text other := by
  intro h
  have hend := le_of_occursAt (by simpa using htext) hgap hle h
  obtain ⟨front', back, htext', rfl, -⟩ := Text.standsBetween_iff.1 h
  rw [htext, ← htext'] at hend
  have hpos : 0 < marker.toList.length := by
    rw [List.length_pos_iff]
    simpa using hmarker
  have hmark := Text.length_le_byteCount marker.toList
  simp only [Text.byteCount_append] at hend
  omega

/-- When nothing is replaced at an occurrence the walk goes on behind the marker. -/
theorem Outcome.stay_at_marker {front gap rest : List Char} {call? : Option Call}
    (htext : front ++ gap ++ (marker.toList ++ rest) = text.toList)
    (hfirst : IsFirst marker text (Text.byteCount front) (Text.byteCount (front ++ gap)))
    (hmade : (⟨Text.byteCount (front ++ gap), call?⟩ : Trial).Made text marker resolve state state')
    (hsplice : (⟨Text.byteCount (front ++ gap), call?⟩ : Trial).splice? = none)
    (h : Outcome text marker resolve (Text.byteCount (front ++ (gap ++ marker.toList))) state'
      found) :
    Outcome text marker resolve (Text.byteCount front) state
      ((found.map (·.keep marker.toList)).map (·.keep gap)) := by
  have hrest : front ++ (gap ++ marker.toList) ++ rest = text.toList := by
    rw [← htext]
    simp
  have hnext : (⟨Text.byteCount (front ++ gap), call?⟩ : Trial).next marker =
      Text.byteCount (front ++ (gap ++ marker.toList)) := by
    rw [Trial.next, hsplice]
    simp [Nat.add_assoc]
  have hpiece := Text.standsBetween_of_append hrest
  rw [← hnext] at h hpiece
  have hall := h.stay hfirst hmade hsplice hpiece
  rw [String.toList_ofList] at hall
  rw [Option.map_map]
  simpa only [Function.comp_def, Substitution.keep_keep] using hall

theorem outcome_at_occurrence {front gap here rest : List Char} (hmarker : marker.toList ≠ [])
    (htext : front ++ gap ++ here = text.toList)
    (hgap : Text.IsGap (Marked marker.toList) gap here) (hmark : marker.toList ++ rest = here)
    (hlater : ∀ later cs, later ++ cs = text.toList → cs.length < here.length → ∀ state,
      Outcome text marker resolve (Text.byteCount later) state
        (substituteFrom marker.toList (bracesOf marker) resolve 0 0 cs state))
    (state : σ) :
    Outcome text marker resolve (Text.byteCount front) state
      ((substituteFrom marker.toList (bracesOf marker) resolve 0 0 here state).map
        (·.keep gap)) := by
  have hfirst := isFirst_of_isGap htext hgap hmark
  -- where no span starts, and where the lookup has no value
  have hstay : ∀ (call? : Option Call) (state' : σ),
      (⟨Text.byteCount (front ++ gap), call?⟩ : Trial).Made text marker resolve state state' →
      (⟨Text.byteCount (front ++ gap), call?⟩ : Trial).splice? = none →
      Outcome text marker resolve (Text.byteCount front) state
        (((substituteFrom marker.toList (bracesOf marker) resolve 0 0 rest state').map
          (·.keep marker.toList)).map (·.keep gap)) := by
    intro call? state' hmade hsplice
    have hshort : rest.length < here.length := by
      have := List.length_pos_iff.2 hmarker
      rw [← hmark, List.length_append]
      omega
    have hwhole : front ++ gap ++ (marker.toList ++ rest) = text.toList := by rw [hmark, htext]
    exact .stay_at_marker hwhole hfirst hmade hsplice
      (hlater _ rest (by simpa using hwhole) hshort state')
  rw [substituteFrom_marked hmarker hmark]
  cases hafter : afterBalanced? .script '\x7b' '\x7d' 0 0 here with
  | none =>
      have hbraced : braced? (bracesOf marker) here = none := by simp only [braced?, hafter]
      have hfound : findBalanced text (Text.byteCount (front ++ gap)) '\x7b' '\x7d' .script =
          none := by
        rw [findBalanced_eq htext, hafter, Option.map_none]
      rw [hbraced]
      exact hstay none state ⟨hfound, rfl⟩ rfl
  | some after =>
      obtain ⟨span, hspan, hne, hbraced, hfound, hinside⟩ :=
        exists_braced htext ⟨rest, hmark⟩ hafter
      rw [hbraced]
      simp only [Option.elim_some]
      cases hinner : innerText? (bracesOf marker) span with
      | none =>
          refine .brokenOff .done hfirst hfound fun inner hstands => ?_
          exact absurd (hinner.symm.trans ((hinside inner).2 hstands)) nofun
      | some inner =>
          have hstands := (hinside inner).1 hinner
          simp only [Option.bind_some]
          rcases hanswer : resolve inner state with ⟨_ | value, state'⟩
          · exact hstay (some ⟨_, inner, none⟩) state' ⟨hfound, hstands, hanswer⟩ rfl
          · have hshort : after.length < here.length := by
              have := List.length_pos_iff.2 hne
              rw [← hspan, List.length_append]
              omega
            have hwhole : front ++ gap ++ span ++ after = text.toList := by
              rw [List.append_assoc, hspan, htext]
            have hmade : (⟨_, some ⟨_, inner, some value⟩⟩ : Trial).Made text marker resolve state
                state' := ⟨hfound, hstands, hanswer⟩
            have hall := Outcome.put hfirst hmade rfl (Text.standsBetween_of_append htext)
              (hlater _ after hwhole hshort state')
            rw [String.toList_ofList] at hall
            exact hall

theorem outcome_substituteFrom (hmarker : marker ≠ "") {front cs : List Char}
    (htext : front ++ cs = text.toList) (state : σ) :
    Outcome text marker resolve (Text.byteCount front) state
      (substituteFrom marker.toList (bracesOf marker) resolve 0 0 cs state) := by
  have hchars : marker.toList ≠ [] := by simpa using hmarker
  -- on the characters that are left: a trial leads to a place behind its occurrence
  induction hlength : cs.length using Nat.strongRecOn generalizing front cs state with
  | ind length ih =>
      obtain ⟨cutting, hcuts⟩ := Text.exists_cuts (takesOff_marked hchars) cs
      cases hcuts with
      | last hgap =>
          have hcopy : substituteFrom marker.toList (bracesOf marker) resolve 0 0 (cs ++ []) state =
              some ⟨cs ++ [], false, state⟩ := substituteFrom_gap hgap
          have hrest : Text.StandsBetween text (Text.byteCount front) text.utf8ByteSize
              (String.ofList cs) := by
            rw [← Text.byteCount_toList, ← htext]
            exact Text.standsBetween_of_append ((List.append_nil _).trans htext)
          have hall : Outcome text marker resolve (Text.byteCount front) state
              (some ⟨(String.ofList cs).toList, !(splices []).isEmpty, state⟩) :=
            .finished .done (fun other => not_occursAt_of_isGap hmarker htext hgap) (.rest hrest)
          rw [List.append_nil] at hcopy
          rw [String.toList_ofList] at hall
          rw [hcopy]
          exact hall
      | @span gap here rest last _ _ hgap hmark hmore =>
          have hwhole : front ++ gap ++ here = text.toList := by rw [List.append_assoc, htext]
          rw [substituteFrom_gap hgap]
          refine outcome_at_occurrence hchars hwhole hgap hmark (fun later cs hlater hshort state => ?_)
            state
          refine ih cs.length ?_ hlater state rfl
          rw [← hlength, List.length_append]
          omega

/-! ## Places -/

theorem exists_span_of_findBalanced {start stop : Nat} (hmark : OccursAt marker text start)
    (h : findBalanced text start '\x7b' '\x7d' .script = some stop) :
    ∃ front body after,
      front ++ (List.replicate (bracesOf marker) '\x7b' ++ (body ++ ['\x7d'])) ++ after =
          text.toList ∧
        Text.byteCount front = start ∧
        Text.byteCount (front ++
          (List.replicate (bracesOf marker) '\x7b' ++ (body ++ ['\x7d']))) = stop ∧
        bracesOf marker ≤ Text.byteCount (body ++ ['\x7d']) := by
  obtain ⟨front, back, htext, rfl, -⟩ := Text.standsBetween_iff.1 hmark
  rw [List.append_assoc] at htext
  rw [findBalanced_eq htext] at h
  obtain ⟨after, hafter, rfl⟩ := Option.map_eq_some_iff.1 h
  obtain ⟨body, hhere, hlong⟩ := exists_span (List.prefix_append _ back) hafter
  rw [← hhere, ← List.append_assoc] at htext
  refine ⟨front, body, after, htext, rfl, ?_, hlong⟩
  rw [← htext, Text.byteCount_append _ after, Nat.add_sub_cancel]

theorem lt_of_findBalanced {start stop : Nat} (hmark : OccursAt marker text start)
    (h : findBalanced text start '\x7b' '\x7d' .script = some stop) : start < stop := by
  obtain ⟨front, body, after, -, rfl, rfl, -⟩ := exists_span_of_findBalanced hmark h
  have hbrace : 0 < Text.byteCount ['\x7d'] := by decide
  simp only [Text.byteCount_append]
  omega

theorem Trial.exists_of_splice? {splice : Splice} (h : trial.splice? = some splice) :
    ∃ inner, trial = ⟨splice.start, some ⟨splice.stop, inner, some splice.value⟩⟩ := by
  obtain ⟨start, _ | ⟨stop, inner, _ | value⟩⟩ := trial
  · simp [splice?] at h
  · simp [splice?] at h
  · obtain rfl := Option.some.inj h
    exact ⟨inner, rfl⟩

theorem Trial.start_of_splice? {splice : Splice} (h : trial.splice? = some splice) :
    splice.start = trial.start := by
  obtain ⟨inner, rfl⟩ := exists_of_splice? h
  rfl

theorem Trial.Made.findBalanced_of_splice? {splice : Splice}
    (hmade : trial.Made text marker resolve state state') (h : trial.splice? = some splice) :
    findBalanced text trial.start '\x7b' '\x7d' .script = some splice.stop := by
  obtain ⟨inner, rfl⟩ := exists_of_splice? h
  exact hmade.1

theorem Trial.Made.lt_next (hmarker : marker ≠ "") (hmark : OccursAt marker text trial.start)
    (hmade : trial.Made text marker resolve state state') : trial.start < trial.next marker := by
  cases hsplice : trial.splice? with
  | none =>
      have hpos : 0 < marker.utf8ByteSize := by
        rw [Nat.pos_iff_ne_zero, Ne, String.utf8ByteSize_eq_zero_iff]
        exact hmarker
      rw [Trial.next, hsplice]
      exact Nat.lt_add_of_pos_right hpos
  | some splice =>
      rw [Trial.next, hsplice]
      exact lt_of_findBalanced hmark (hmade.findBalanced_of_splice? hsplice)

variable {trials : List Trial} {stop : Nat} {last : σ}

theorem Trials.le_start (hmarker : marker ≠ "")
    (h : Trials text marker resolve place state trials stop last) :
    ∀ trial ∈ trials, place ≤ trial.start := by
  induction h with
  | done => simp
  | trial hfirst hmade _ ih =>
      have hlt := hmade.lt_next hmarker hfirst.occurs
      have hle := hfirst.le
      refine List.forall_mem_cons.2 ⟨hle, fun later hlater => ?_⟩
      have := ih later hlater
      omega

theorem Trials.pairwise_start (hmarker : marker ≠ "")
    (h : Trials text marker resolve place state trials stop last) :
    trials.Pairwise fun trial later => trial.start < later.start := by
  induction h with
  | done => exact .nil
  | trial hfirst hmade hmore ih =>
      refine List.pairwise_cons.2 ⟨fun later hlater => ?_, ih⟩
      exact Nat.lt_of_lt_of_le (hmade.lt_next hmarker hfirst.occurs)
        (hmore.le_start hmarker later hlater)

theorem Trials.of_mem (h : Trials text marker resolve place state trials stop last) :
    ∀ trial ∈ trials, OccursAt marker text trial.start ∧
      ∃ before after, trial.Made text marker resolve before after := by
  induction h with
  | done => simp
  | trial hfirst hmade _ ih =>
      exact List.forall_mem_cons.2 ⟨⟨hfirst.occurs, _, _, hmade⟩, ih⟩

theorem Trials.of_mem_splices (h : Trials text marker resolve place state trials stop last) :
    ∀ splice ∈ splices trials, OccursAt marker text splice.start ∧
      findBalanced text splice.start '\x7b' '\x7d' .script = some splice.stop := by
  intro splice hmem
  obtain ⟨trial, htrial, hsplice⟩ := List.mem_filterMap.1 hmem
  obtain ⟨hmark, before, after, hmade⟩ := h.of_mem trial htrial
  rw [Trial.start_of_splice? hsplice]
  exact ⟨hmark, hmade.findBalanced_of_splice? hsplice⟩

theorem Trials.pairwise_splices (hmarker : marker ≠ "")
    (h : Trials text marker resolve place state trials stop last) :
    (splices trials).Pairwise fun splice later => splice.stop ≤ later.start := by
  rw [splices, List.pairwise_filterMap]
  induction h with
  | done => exact .nil
  | trial hfirst hmade hmore ih =>
      refine List.pairwise_cons.2 ⟨fun later hlater splice hsplice other hother => ?_, ih⟩
      have hle := hmore.le_start hmarker later hlater
      rw [Trial.next, hsplice] at hle
      rw [Trial.start_of_splice? hother]
      exact hle

theorem exists_outcome (text more : String) (resolve : Resolver σ) (state : σ) :
    ∃ found, Outcome text ("\x7b" ++ more) resolve 0 state found ∧
      substituteWith? text ("\x7b" ++ more) resolve state = found.map fun done =>
        (if done.substituted then some (String.ofList done.out) else none, done.state) := by
  have hmarker : "\x7b" ++ more ≠ "" := by simp
  have hbraces : (bracesOf ("\x7b" ++ more) == 0) = false := by simp [bracesOf]
  refine ⟨_, outcome_substituteFrom hmarker (List.nil_append _) state, ?_⟩
  rw [substituteWith?, hbraces, if_neg Bool.false_ne_true]

end Run

/-- The trials of a substitution go from left to right over the text as it is given.  The spans
with a value are apart from each other, each from an occurrence of the marker to the brace that
closes it, and the answer is the text with the values in their places, if there is one.  There
is no answer only where the walk comes to a span that is cut inside a character. -/
theorem substituteWith?_replaces_spans (text more : String) (resolve : Resolver σ) (state : σ) :
    let marker := "\x7b" ++ more
    ∃ trials stop last, Trials text marker resolve 0 state trials stop last ∧
      trials.Pairwise (fun trial later => trial.start < later.start) ∧
      (splices trials).Pairwise (fun splice later => splice.stop ≤ later.start) ∧
      (∀ splice ∈ splices trials, OccursAt marker text splice.start ∧
        findBalanced text splice.start '\x7b' '\x7d' .script = some splice.stop) ∧
      ((∀ other, stop ≤ other → ¬ OccursAt marker text other) ∧
          (∃ out, Spliced text 0 (splices trials) out ∧
            substituteWith? text marker resolve state =
              some (if (splices trials).isEmpty then none else some out, last)) ∨
        ∃ start bound, IsFirst marker text stop start ∧
          findBalanced text start '\x7b' '\x7d' .script = some bound ∧
          CutInside text marker start bound ∧
          substituteWith? text marker resolve state = none) := by
  intro marker
  have hmarker : marker ≠ "" := by simp [marker]
  obtain ⟨found, houtcome, hanswer⟩ := exists_outcome text more resolve state
  rw [hanswer]
  cases houtcome with
  | @finished trials stop last out htrials hnone hout =>
      refine ⟨trials, stop, last, htrials, htrials.pairwise_start hmarker,
        htrials.pairwise_splices hmarker, htrials.of_mem_splices, .inl ⟨hnone, out, hout, ?_⟩⟩
      rw [Option.map_some, String.ofList_toList]
      cases (splices trials).isEmpty <;> rfl
  | @brokenOff trials stop start bound last htrials hfirst hspan hcut =>
      exact ⟨trials, stop, last, htrials, htrials.pairwise_start hmarker,
        htrials.pairwise_splices hmarker, htrials.of_mem_splices,
        .inr ⟨start, bound, hfirst, hspan, hcut, rfl⟩⟩

end BookRules.Rule
