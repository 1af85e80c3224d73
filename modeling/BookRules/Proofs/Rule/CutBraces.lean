import BookRules.Proofs.Rule.Placeholders

/-!
# What is cut off a span

Every span that is looked up starts with the braces of the marker, and the text that is asked
for stands behind them.  At the end of the span only the brace that closes it is sure to be cut
off: the other bytes of the cut are those in front of that brace, which may belong to other
characters or to a part of one.  They are braces where the span holds items between as many
braces on either side, and with a marker of one brace there are no such bytes.
-/

namespace BookRules.Rule

variable {σ : Type}

def openings (k : Nat) : String :=
  String.ofList (List.replicate k '\x7b')

def closings (k : Nat) : String :=
  String.ofList (List.replicate k '\x7d')

/-- A span is `k` opening braces, the text inside and `k` closing braces. -/
def HasBraces (text : String) (k start stop : Nat) (inner : String) : Prop :=
  Text.StandsBetween text start stop (openings k ++ inner ++ closings k)

/-- Nothing but braces is cut off, and every cut falls between two characters. -/
def StripsBraces (text marker : String) (resolve : Resolver σ) (state : σ) : Prop :=
  substituteWith? text marker resolve state ≠ none ∧
    ∀ trials stop last, Trials text marker resolve 0 state trials stop last →
      ∀ trial ∈ trials, ∀ call, trial.call? = some call →
        HasBraces text (bracesOf marker) trial.start call.stop call.inner

/-- A span is `k` opening braces, the text inside, `k - 1` bytes of whatever stands there, and
the brace that closes it. -/
def LosesBytes (text : String) (k start stop : Nat) (inner : String) : Prop :=
  ∃ lost : String, lost.utf8ByteSize + 1 = k ∧
    Text.StandsBetween text start stop (openings k ++ inner ++ lost ++ "\x7d")

/-- Items stand between `k` braces on either side. -/
def HoldsItems (text : String) (k start : Nat) : Prop :=
  ∃ items stop, Items .braces items.toList ∧ HasBraces text k start stop items

section Span

variable {text marker inner : String} {resolve : Resolver σ} {state state' : σ} {k start stop : Nat}

theorem one_le_bracesOf (more : String) : 1 ≤ bracesOf ("\x7b" ++ more) := by
  simp [bracesOf]

theorem HasBraces.standsBetween (h : HasBraces text k start stop inner) :
    Text.StandsBetween text (start + k) (stop - k) inner := by
  obtain ⟨front, back, htext, rfl, rfl⟩ := Text.standsBetween_iff.1 h
  have hopenings : Text.byteCount (List.replicate k '\x7b') = k := Text.byteCount_replicate k rfl
  have hclosings : Text.byteCount (List.replicate k '\x7d') = k := Text.byteCount_replicate k rfl
  refine Text.standsBetween_iff.2 ⟨front ++ List.replicate k '\x7b',
    List.replicate k '\x7d' ++ back, ?_, ?_, ?_⟩
  · rw [← htext]
    simp [openings, closings]
  · rw [Text.byteCount_append, hopenings]
  · simp only [openings, closings, String.toList_append, String.toList_ofList,
      Text.byteCount_append, hopenings, hclosings]
    omega

/-- Items between one brace and another on either side are items again. -/
theorem Items.nested {cs : List Char} (h : Items .braces cs) (k : Nat) :
    Items .braces (List.replicate k '\x7b' ++ cs ++ List.replicate k '\x7d') := by
  induction k with
  | zero => simpa using h
  | succ k ih =>
      have hall : Items .braces ('\x7b' :: (List.replicate k '\x7b' ++ cs ++
          List.replicate k '\x7d') ++ '\x7d' :: []) := .balanced ih .nil
      rw [List.replicate_succ, List.replicate_succ' (a := '\x7d')]
      simpa using hall

theorem isBalanced_nested {cs : List Char} (h : Items .braces cs) (hk : 1 ≤ k) :
    IsBalanced (List.replicate k '\x7b' ++ cs ++ List.replicate k '\x7d') := by
  obtain ⟨k, rfl⟩ := Nat.exists_eq_add_of_le' hk
  refine ⟨_, h.nested k, ?_⟩
  rw [List.replicate_succ, List.replicate_succ' (a := '\x7d')]
  simp

theorem findBalanced_of_items (hk : 1 ≤ k) (hitems : Items .braces inner.toList)
    (h : HasBraces text k start stop inner) :
    findBalanced text start '\x7b' '\x7d' .script = some stop := by
  obtain ⟨front, back, htext, rfl, rfl⟩ := Text.standsBetween_iff.1 h
  refine findBalanced_eq_some htext ?_
  have hspan : (openings k ++ inner ++ closings k).toList =
      List.replicate k '\x7b' ++ inner.toList ++ List.replicate k '\x7d' := by
    simp [openings, closings]
  rw [hspan]
  exact (isBalanced_nested hitems hk).afterBalanced?_append back

theorem exists_hasBraces (hk : 1 ≤ bracesOf marker) (hmark : OccursAt marker text start)
    (h : findBalanced text start '\x7b' '\x7d' .script = some stop)
    (hspan : bracesOf marker = 1 ∨ HoldsItems text (bracesOf marker) start) :
    ∃ inner, HasBraces text (bracesOf marker) start stop inner := by
  rcases hspan with hone | ⟨items, bound, hitems, hbraces⟩
  · obtain ⟨front, body, after, htext, rfl, rfl, -⟩ := exists_span_of_findBalanced hmark h
    have hbody : List.replicate (bracesOf marker) '\x7b' ++ (body ++ ['\x7d']) =
        (openings 1 ++ String.ofList body ++ closings 1).toList := by
      simp [openings, closings, hone]
    rw [hbody] at htext ⊢
    rw [hone]
    exact ⟨String.ofList body, Text.standsBetween_iff.2 ⟨front, after, htext, rfl, rfl⟩⟩
  · have hsame : stop = bound :=
      Option.some.inj (h.symm.trans (findBalanced_of_items hk hitems hbraces))
    exact ⟨items, hsame ▸ hbraces⟩

theorem losesBytes_of_findBalanced (hk : 1 ≤ bracesOf marker) (hmark : OccursAt marker text start)
    (h : findBalanced text start '\x7b' '\x7d' .script = some stop)
    (hinner : Text.StandsBetween text (start + bracesOf marker) (stop - bracesOf marker) inner) :
    LosesBytes text (bracesOf marker) start stop inner := by
  obtain ⟨front, body, after, htext, rfl, rfl, hlong⟩ := exists_span_of_findBalanced hmark h
  rw [standsBetween_inner_iff htext hlong, innerText?_eq_some_iff] at hinner
  obtain ⟨back, hback, hsize⟩ := hinner
  -- the bytes that are cut off reach up to the brace that closes the span
  rcases List.eq_nil_or_concat back with rfl | ⟨lost, c, rfl⟩
  · simp only [Text.byteCount_nil] at hsize
    omega
  · rw [List.concat_eq_append, ← List.append_assoc] at hback
    obtain ⟨rfl, hc⟩ := List.append_inj' hback rfl
    obtain rfl := List.singleton_inj.1 hc
    have hbrace : Text.byteCount ['\x7d'] = 1 := rfl
    refine ⟨String.ofList lost, ?_, ?_⟩
    · rw [List.concat_eq_append, Text.byteCount_append, hbrace] at hsize
      rw [← Text.byteCount_toList, String.toList_ofList, hsize]
    · have hspan : (openings (bracesOf marker) ++ inner ++ String.ofList lost ++ "\x7d").toList =
          List.replicate (bracesOf marker) '\x7b' ++ (inner.toList ++ lost ++ ['\x7d']) := by
        simp [openings]
      rw [← hspan] at htext ⊢
      exact Text.standsBetween_iff.2 ⟨front, after, htext, rfl, rfl⟩

theorem not_cutInside (hk : 1 ≤ bracesOf marker) (hmark : OccursAt marker text start)
    (h : findBalanced text start '\x7b' '\x7d' .script = some stop)
    (hspan : bracesOf marker = 1 ∨ HoldsItems text (bracesOf marker) start) :
    ¬ CutInside text marker start stop := by
  intro hcut
  obtain ⟨inner, hbraces⟩ := exists_hasBraces hk hmark h hspan
  exact hcut inner hbraces.standsBetween

end Span

/-! ## There is one run -/

section Run

variable {text marker : String} {resolve : Resolver σ} {place stop stop' start bound : Nat}
  {state before after after' last last' : σ} {trial other : Trial} {trials others : List Trial}

theorem isFirst_of_occursAt (h : OccursAt marker text place) : IsFirst marker text place place :=
  ⟨h, Nat.le_refl place, fun _ hle _ => hle⟩

theorem IsFirst.eq {start' : Nat} (h : IsFirst marker text place start)
    (hother : IsFirst marker text place start') : start = start' :=
  Nat.le_antisymm (h.le_of_occurs start' hother.le hother.occurs)
    (hother.le_of_occurs start h.le h.occurs)

theorem Trial.Made.eq (hstart : trial.start = other.start)
    (h : trial.Made text marker resolve before after)
    (hother : other.Made text marker resolve before after') : trial = other ∧ after = after' := by
  obtain ⟨start, call?⟩ := trial
  obtain ⟨start', call?'⟩ := other
  obtain rfl : start = start' := hstart
  cases call? with
  | none =>
      cases call?' with
      | none => exact ⟨rfl, h.2.trans hother.2.symm⟩
      | some call' => exact absurd (h.1.symm.trans hother.1) nofun
  | some call =>
      cases call?' with
      | none => exact absurd (h.1.symm.trans hother.1) nofun
      | some call' =>
          obtain ⟨bound, inner, answer?⟩ := call
          obtain ⟨bound', inner', answer?'⟩ := call'
          obtain ⟨hfound, hinner, hanswer⟩ := h
          obtain ⟨hfound', hinner', hanswer'⟩ := hother
          obtain rfl : bound = bound' := Option.some.inj (hfound.symm.trans hfound')
          obtain rfl : inner = inner' := hinner.eq hinner'
          obtain ⟨rfl, rfl⟩ := Prod.mk.inj (hanswer.symm.trans hanswer')
          exact ⟨rfl, rfl⟩

theorem Trial.Made.not_cutInside (h : trial.Made text marker resolve before after)
    (hspan : findBalanced text trial.start '\x7b' '\x7d' .script = some bound) :
    ¬ CutInside text marker trial.start bound := by
  obtain ⟨start, _ | ⟨bound', inner, answer?⟩⟩ := trial
  · exact absurd (hspan.symm.trans h.1) nofun
  · obtain rfl : bound = bound' := Option.some.inj (hspan.symm.trans h.1)
    exact fun hcut => hcut inner h.2.1

theorem Trials.exists_occursAt_of_cutInside
    (h : Trials text marker resolve place state trials stop last)
    (hfirst : IsFirst marker text stop start)
    (hspan : findBalanced text start '\x7b' '\x7d' .script = some bound)
    (hcut : CutInside text marker start bound)
    (hothers : Trials text marker resolve place state others stop' last') :
    ∃ other, stop' ≤ other ∧ OccursAt marker text other := by
  -- the other run goes the same way as long as it goes on, and so ends no later
  induction h generalizing others with
  | done =>
      cases hothers with
      | done => exact ⟨start, hfirst.le, hfirst.occurs⟩
      | @trial _ _ _ _ _ other _ hother hmade _ =>
          obtain rfl := hfirst.eq hother
          exact absurd hcut (hmade.not_cutInside hspan)
  | trial hhere hmade _ ih =>
      cases hothers with
      | done => exact ⟨_, hhere.le, hhere.occurs⟩
      | trial hother hmade' hmore =>
          obtain ⟨rfl, rfl⟩ := hmade.eq (hhere.eq hother) hmade'
          exact ih hfirst hmore

end Run

/-- There is no answer exactly where the run comes to a span that is cut inside a character. -/
theorem substituteWith?_eq_none_iff (text more : String) (resolve : Resolver σ) (state : σ) :
    substituteWith? text ("\x7b" ++ more) resolve state = none ↔
      ∃ trials stop last start bound,
        Trials text ("\x7b" ++ more) resolve 0 state trials stop last ∧
        IsFirst ("\x7b" ++ more) text stop start ∧
        findBalanced text start '\x7b' '\x7d' .script = some bound ∧
        CutInside text ("\x7b" ++ more) start bound := by
  obtain ⟨found, houtcome, hanswer⟩ := exists_outcome text more resolve state
  constructor
  · intro hnone
    rw [hanswer, Option.map_eq_none_iff] at hnone
    subst hnone
    cases houtcome with
    | brokenOff htrials hfirst hspan hcut =>
        exact ⟨_, _, _, _, _, htrials, hfirst, hspan, hcut⟩
  · rintro ⟨trials, stop, last, start, bound, htrials, hfirst, hspan, hcut⟩
    cases houtcome with
    | brokenOff => exact hanswer
    | finished hothers hnone =>
        obtain ⟨other, hle, hoccurs⟩ :=
          htrials.exists_occursAt_of_cutInside hfirst hspan hcut hothers
        exact absurd hoccurs (hnone other hle)

/-- With a marker of one brace every text has an answer. -/
theorem isSome_substitute? (text more : String) (resolve : String → Option String)
    (hone : bracesOf ("\x7b" ++ more) = 1) :
    (substitute? text ("\x7b" ++ more) resolve).isSome := by
  rw [substitute?, Option.isSome_map, Option.isSome_iff_ne_none, Ne, substituteWith?_eq_none_iff]
  rintro ⟨trials, stop, last, start, bound, -, hfirst, hspan, hcut⟩
  exact not_cutInside (one_le_bracesOf more) hfirst.occurs hspan (.inl hone) hcut

/-- Every text that is looked up stands behind the braces of its span; at the end the brace that
closes the span is lost, and as many bytes in front of it as the marker has braces left.  These
are braces too where the span holds items between its braces; with a marker of one brace there
are none.  There is no answer exactly where the walk comes to a span whose cut at the end falls
inside a character, which happens at other spans only. -/
theorem substituteWith?_loses_bytes (text more : String) (resolve : Resolver σ) (state : σ) :
    let marker := "\x7b" ++ more
    (∀ trials stop last, Trials text marker resolve 0 state trials stop last →
      ∀ trial ∈ trials, ∀ call, trial.call? = some call →
        LosesBytes text (bracesOf marker) trial.start call.stop call.inner ∧
          (bracesOf marker = 1 ∨ HoldsItems text (bracesOf marker) trial.start →
            HasBraces text (bracesOf marker) trial.start call.stop call.inner)) ∧
      (substituteWith? text marker resolve state = none ↔
        ∃ trials stop last start bound, Trials text marker resolve 0 state trials stop last ∧
          IsFirst marker text stop start ∧
          findBalanced text start '\x7b' '\x7d' .script = some bound ∧
          CutInside text marker start bound) ∧
      ∀ start bound, OccursAt marker text start →
        findBalanced text start '\x7b' '\x7d' .script = some bound →
        CutInside text marker start bound →
        1 < bracesOf marker ∧ ¬ HoldsItems text (bracesOf marker) start := by
  intro marker
  have hk : 1 ≤ bracesOf marker := one_le_bracesOf more
  refine ⟨?called, ?broken, ?inside⟩
  case called =>
    intro trials stop last htrials trial hmem call hcall
    obtain ⟨hmark, before, after, hmade⟩ := htrials.of_mem trial hmem
    simp only [Trial.Made, hcall] at hmade
    obtain ⟨hfound, hinner, -⟩ := hmade
    refine ⟨losesBytes_of_findBalanced hk hmark hfound hinner, fun hspan => ?_⟩
    obtain ⟨inner, hbraces⟩ := exists_hasBraces hk hmark hfound hspan
    rw [hinner.eq hbraces.standsBetween]
    exact hbraces
  case broken => exact substituteWith?_eq_none_iff text more resolve state
  case inside =>
    intro start bound hmark hspan hcut
    obtain ⟨hone, hitems⟩ := not_or.1 fun hother => not_cutInside hk hmark hspan hother hcut
    exact ⟨Nat.lt_of_le_of_ne hk (Ne.symm hone), hitems⟩

/-- A text asked for that stands between two braces on either side. -/
theorem substituteWith?_loses_bytes_key :
    let text := "\x7b\x7bkey\x7d\x7d"
    HoldsItems text 2 0 ∧ LosesBytes text 2 0 7 "key" ∧ HasBraces text 2 0 7 "key" := by
  intro text
  have hitems : Items .braces "key".toList :=
    .plain (by decide) (.plain (by decide) (.plain (by decide) .nil))
  have hbraces : HasBraces text 2 0 7 "key" := ⟨"", "", by decide, by decide, by decide⟩
  have hmark : OccursAt ("\x7b" ++ "\x7b") text 0 :=
    ⟨"", "key\x7d\x7d", by decide, by decide, by decide⟩
  let trial : Trial := ⟨0, some ⟨7, "key", none⟩⟩
  have hmade : trial.Made text ("\x7b" ++ "\x7b") (fun _ (_ : Unit) => (none, ())) () () :=
    ⟨findBalanced_of_items (by decide) hitems hbraces, hbraces.standsBetween, rfl⟩
  have hheld : HoldsItems text 2 0 := ⟨"key", 7, hitems, hbraces⟩
  obtain ⟨hlost, hnone⟩ := (substituteWith?_loses_bytes text "\x7b" _ ()).1 _ _ _
    (.trial (isFirst_of_occursAt hmark) hmade .done) trial (List.mem_singleton_self trial) _ rfl
  exact ⟨hheld, hlost, hnone (.inr hheld)⟩

/-- A space in front of the closing brace is lost; a character of three bytes there is cut. -/
theorem not_stripsBraces_of_space :
    let resolve : Resolver Unit := fun _ _ => (some "X", ())
    ¬ StripsBraces "\x7b\x7ba\x7d \x7d" "\x7b\x7b" resolve () ∧
      substituteWith? "\x7b\x7ba\x7d書\x7d" "\x7b\x7b" resolve () = none := by
  intro resolve
  constructor
  · rintro ⟨-, hall⟩
    let text := "\x7b\x7ba\x7d \x7d"
    have hitems : Items .braces "\x7ba\x7d ".toList :=
      .balanced (.plain (by decide) .nil) (.plain (by decide) .nil)
    have hbraces : HasBraces text 1 0 6 "\x7ba\x7d " := ⟨"", "", by decide, by decide, by decide⟩
    have hmark : OccursAt "\x7b\x7b" text 0 := ⟨"", "a\x7d \x7d", by decide, by decide, by decide⟩
    let trial : Trial := ⟨0, some ⟨6, "a\x7d", some "X"⟩⟩
    have hmade : trial.Made text "\x7b\x7b" resolve () () :=
      ⟨findBalanced_of_items (by decide) hitems hbraces,
        ⟨"\x7b\x7b", " \x7d", by decide, by decide, by decide⟩, rfl⟩
    have htrials : Trials text "\x7b\x7b" resolve 0 () [trial] 6 () :=
      .trial (isFirst_of_occursAt hmark) hmade .done
    have hspan := hall [trial] 6 () htrials trial (List.mem_singleton_self trial) _ rfl
    have hk : bracesOf "\x7b\x7b" = 2 := by decide
    rw [hk] at hspan
    have hwhole : Text.StandsBetween text 0 6 text := ⟨"", "", by decide, by decide, by decide⟩
    exact absurd (hspan.eq hwhole) (by decide)
  · let text := "\x7b\x7ba\x7d書\x7d"
    have hitems : Items .braces "\x7ba\x7d書".toList :=
      .balanced (.plain (by decide) .nil) (.plain (by decide) .nil)
    have hbraces : HasBraces text 1 0 8 "\x7ba\x7d書" := ⟨"", "", by decide, by decide, by decide⟩
    have hmark : OccursAt ("\x7b" ++ "\x7b") text 0 :=
      ⟨"", "a\x7d書\x7d", by decide, by decide, by decide⟩
    have htext : [] ++ (List.replicate 2 '\x7b' ++ ['a', '\x7d', '書', '\x7d']) ++ [] =
        text.toList := by decide
    have hcut : CutInside text ("\x7b" ++ "\x7b") 0 8 := by
      intro inner hinner
      have hk : bracesOf ("\x7b" ++ "\x7b") = 2 := by decide
      rw [hk] at hinner
      have hsome := (standsBetween_inner_iff htext (by decide)).1 hinner
      have hnone : innerText? 2 (List.replicate 2 '\x7b' ++ ['a', '\x7d', '書', '\x7d']) = none := by
        decide
      exact absurd (hnone.symm.trans hsome) nofun
    exact (substituteWith?_eq_none_iff text "\x7b" resolve ()).2 ⟨[], 0, (), 0, 8, .done,
      isFirst_of_occursAt hmark, findBalanced_of_items (by decide) hitems hbraces, hcut⟩

end BookRules.Rule
