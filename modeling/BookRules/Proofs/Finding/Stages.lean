import BookRules.Finding.Evaluation
import BookRules.Proofs.Rule.Scripts
import Mathlib.Tactic.SplitIfs

/-!
# What an evaluation needs of a session

Two sessions may differ in what an evaluation does not need.  Two evaluations match along a
relation of sessions if they give the same answer in related sessions and leave related
sessions behind; sequencing keeps this.  The parts of an evaluation match if related sessions
have the same context and the rules in placeholders match.

A view is a part of a session.  An evaluation that needs no more than a view and leaves it as
it was matches itself in all sessions of the same view, so items that are evaluated one after
the other do not bear on one another: each of them gives what it gives on its own.
-/

namespace BookRules.Finding

variable {α β γ : Type} {related : Session → Session → Prop} {view : Session → γ}
  {m m' : Eval α} {nested nested' : Nested}

theorem run_bind (m : Eval α) (f : α → Eval β) (session : Session) :
    (m >>= f).run session = (f (m.run session).1).run (m.run session).2 :=
  rfl

theorem run_pure (a : α) (session : Session) : (pure a : Eval α).run session = (a, session) :=
  rfl

/-- The same answer in related sessions, which are related afterwards. -/
def Matches (related : Session → Session → Prop) (m m' : Eval α) : Prop :=
  ∀ s t : Session, related s t →
    (m.run s).1 = (m'.run t).1 ∧ related (m.run s).2 (m'.run t).2

namespace Matches

theorem pure (a : α) : Matches related (Pure.pure a : Eval α) (Pure.pure a) :=
  fun _ _ hst => ⟨rfl, hst⟩

theorem bind {f f' : α → Eval β} (hm : Matches related m m')
    (hf : ∀ a, Matches related (f a) (f' a)) : Matches related (m >>= f) (m' >>= f') := by
  intro s t hst
  obtain ⟨hanswer, hafter⟩ := hm s t hst
  rw [run_bind, run_bind, ← hanswer]
  exact hf (m.run s).1 (m.run s).2 (m'.run t).2 hafter

theorem map {f : α → β} (hm : Matches related m m') :
    Matches related (do return f (← m)) (do return f (← m')) :=
  hm.bind fun a => pure (f a)

theorem read {f f' : Session → α} (hf : ∀ s t : Session, related s t → f s = f' t) :
    Matches related (do return f (← get)) (do return f' (← get)) :=
  fun s t hst => ⟨hf s t hst, hst⟩

theorem mapM {f f' : α → Eval β} {xs : List α} (hf : ∀ x ∈ xs, Matches related (f x) (f' x)) :
    Matches related (xs.mapM f) (xs.mapM f') := by
  induction xs with
  | nil => exact pure []
  | cons x xs ih =>
      rw [List.mapM_cons, List.mapM_cons]
      apply bind (hf x List.mem_cons_self)
      intro y
      apply bind (ih fun z hz => hf z (List.mem_cons_of_mem x hz))
      intro ys
      exact pure (y :: ys)

theorem foldlM {f f' : β → α → Eval β} {xs : List α}
    (hf : ∀ x ∈ xs, ∀ b, Matches related (f b x) (f' b x)) (b : β) :
    Matches related (xs.foldlM f b) (xs.foldlM f' b) := by
  induction xs generalizing b with
  | nil => exact pure b
  | cons x xs ih =>
      rw [List.foldlM_cons, List.foldlM_cons]
      apply bind (hf x List.mem_cons_self b)
      intro b'
      exact ih (fun z hz => hf z (List.mem_cons_of_mem x hz)) b'

end Matches

/-! ## Views -/

/-- Sessions with the same view give the same answer, and the view is the same afterwards. -/
def Keeps (view : Session → γ) (m : Eval α) : Prop :=
  ∀ s t : Session, view s = view t → (m.run s).1 = (m.run t).1 ∧ view (m.run s).2 = view s

/-- Both sessions have this view. -/
def BothShow (view : Session → γ) (shown : γ) (s t : Session) : Prop :=
  view s = shown ∧ view t = shown

theorem keeps_iff_matches : Keeps view m ↔ ∀ shown, Matches (BothShow view shown) m m := by
  constructor
  · rintro h shown s t ⟨hs, ht⟩
    exact ⟨(h s t (hs.trans ht.symm)).1, (h s s rfl).2.trans hs, (h t t rfl).2.trans ht⟩
  · intro h s t hst
    obtain ⟨hanswer, hafter, -⟩ := h (view t) s t ⟨hst, rfl⟩
    exact ⟨hanswer, hafter.trans hst.symm⟩

namespace Keeps

theorem pure (a : α) : Keeps view (Pure.pure a : Eval α) :=
  fun _ _ _ => ⟨rfl, rfl⟩

theorem bind {f : α → Eval β} (hm : Keeps view m) (hf : ∀ a, Keeps view (f a)) :
    Keeps view (m >>= f) :=
  keeps_iff_matches.2 fun shown =>
    (keeps_iff_matches.1 hm shown).bind fun a => keeps_iff_matches.1 (hf a) shown

theorem map {f : α → β} (hm : Keeps view m) : Keeps view (do return f (← m)) :=
  hm.bind fun a => pure (f a)

/-- Reading what the view holds. -/
theorem read {f : Session → α} (hf : ∀ s t : Session, view s = view t → f s = f t) :
    Keeps view (do return f (← get)) :=
  fun s t hst => ⟨hf s t hst, rfl⟩

/-- Each item gives what it gives on its own. -/
theorem answers_mapM {f : α → Eval β} {xs : List α} (hf : ∀ x ∈ xs, Keeps view (f x))
    {s t : Session} (hst : view s = view t) :
    ((xs.mapM f).run s).1 = xs.map fun x => ((f x).run t).1 := by
  induction xs generalizing s with
  | nil => rfl
  | cons x xs ih =>
      obtain ⟨hanswer, hafter⟩ := hf x List.mem_cons_self s t hst
      have hrest := ih (fun y hy => hf y (List.mem_cons_of_mem x hy)) (hafter.trans hst)
      rw [List.mapM_cons, List.map_cons, run_bind, run_bind, run_pure, hanswer, hrest]

end Keeps

/-! ## Stages -/

/-- Related sessions look up the same variables. -/
def SameContext (related : Session → Session → Prop) : Prop :=
  ∀ s t : Session, related s t → s.context = t.context

theorem runScript_matches (hsame : SameContext related) (source : String) (input : Found) :
    Matches related (runScript source input) (runScript source input) := by
  apply Matches.read
  intro s t hst
  rw [hsame s t hst]

theorem find_matches (hsame : SameContext related) (mode : Rule.Mode) (rule : String)
    (shape : Shape) (input : Found) :
    Matches related (find mode rule shape input) (find mode rule shape input) := by
  cases mode with
  | script => exact (runScript_matches hsame rule input).map
  | template => exact Matches.pure _
  | css => exact Matches.pure _
  | xpath => exact Matches.pure _
  | jsonPath => exact Matches.pure _

theorem segmentText_matches (hsame : SameContext related) {segment : Rule.Segment}
    (hnested : ∀ body, segment = .rule body → Matches related (nested body) (nested' body))
    (input : Found) :
    Matches related (segmentText nested input segment) (segmentText nested' input segment) := by
  match segment, hnested with
  | .literal text, _ => exact Matches.pure text
  | .variable name, _ =>
      apply Matches.read
      intro s t hst
      rw [hsame s t hst]
  | .rule body, hnested => exact (hnested body rfl).map
  | .script source, _ => exact (runScript_matches hsame source input).map
  | .group index, _ => exact Matches.pure _

theorem fill_matches (hsame : SameContext related) {segments : List Rule.Segment}
    (hnested : ∀ body, .rule body ∈ segments → Matches related (nested body) (nested' body))
    (input : Found) :
    Matches related (fill nested input segments) (fill nested' input segments) := by
  have htexts : Matches related (segments.mapM (segmentText nested input))
      (segments.mapM (segmentText nested' input)) := by
    apply Matches.mapM
    intro segment hsegment
    apply segmentText_matches hsame
    rintro body rfl
    exact hnested body hsegment
  exact htexts.map

theorem resolve_matches (hsame : SameContext related) {stage : Rule.Stage}
    (hnested : ∀ body, .rule body ∈ stage.segments → Matches related (nested body) (nested' body))
    (input : Found) :
    Matches related (resolve nested stage input) (resolve nested' stage input) := by
  unfold resolve
  split_ifs
  · exact (fill_matches hsame hnested input).map
  · exact Matches.pure _

theorem runStage_matches (hsame : SameContext related) {stage : Rule.Stage}
    (hbindings : stage.bindings = [])
    (hnested : ∀ body, .rule body ∈ stage.segments → Matches related (nested body) (nested' body))
    (shape : Shape) (input : Found) :
    Matches related (runStage nested shape input stage) (runStage nested' shape input stage) := by
  unfold runStage
  rw [hbindings]
  apply (Matches.pure ()).bind
  intro _
  apply (resolve_matches hsame hnested input).bind
  intro parts
  dsimp only
  split_ifs
  · exact Matches.pure _
  · exact (find_matches hsame stage.mode parts.rule shape input).map

/-! ## One level of evaluation -/

/-- What is remembered is what would be read. -/
theorem stages_fetch (cache : Rule.Cache) (content : Rule.Content) (rule : String) :
    (cache.fetch content rule).1.stages = Rule.pipeline content rule := by
  unfold Rule.Cache.fetch
  split
  next entry hfound =>
    have hsame := List.find?_some hfound
    simp only [Bool.and_eq_true, decide_eq_true_eq] at hsame
    rw [entry.stages_eq, hsame.1, hsame.2]
  next => rfl

/-- The text of a rule inside a rule, with `fuel` for its evaluation. -/
def nestedText (fuel : Nat) : Nested :=
  fun body => return (← run fuel .string body).bind Found.text?

theorem run_of_stop {fuel : Nat} {shape : Shape} {rule : String} {s : Session}
    (h : (Limits.ruleDepth ≤ s.depth || Text.isBlankText rule) = true) :
    (run (fuel + 1) shape rule).run s = (none, s) := by
  change (if (Limits.ruleDepth ≤ s.depth || Text.isBlankText rule) = true then _ else _ :
    Eval (Option Found)).run s = _
  rw [if_pos h]
  rfl

/-- One level of evaluation: the stages one after the other, one level deeper. -/
theorem run_of_go {fuel : Nat} {shape : Shape} {rule : String} {s : Session}
    (h : ¬ (Limits.ruleDepth ≤ s.depth || Text.isBlankText rule) = true) :
    let inner := ((Rule.pipeline (contentOf s.content) rule).foldlM
      (runStage (nestedText fuel) shape) (.node s.content)).run
        { s with
          cache := (s.cache.fetch (contentOf s.content) rule).2
          depth := s.depth + 1 }
    (run (fuel + 1) shape rule).run s =
      (some inner.1, { inner.2 with depth := inner.2.depth - 1 }) := by
  rw [← stages_fetch s.cache (contentOf s.content) rule]
  change (if (Limits.ruleDepth ≤ s.depth || Text.isBlankText rule) = true then _ else _ :
    Eval (Option Found)).run s = _
  rw [if_neg h]
  rfl

/-- A rule of one stage: the stage, one level deeper. -/
theorem run_of_single {fuel : Nat} {shape : Shape} {rule : String} {s : Session}
    {stage : Rule.Stage} (hdepth : s.depth < Limits.ruleDepth)
    (hstage : Rule.pipeline (contentOf s.content) rule = [stage]) :
    let inner := (runStage (nestedText fuel) shape (.node s.content) stage).run
      { s with
        cache := (s.cache.fetch (contentOf s.content) rule).2
        depth := s.depth + 1 }
    (run (fuel + 1) shape rule).run s =
      (some inner.1, { inner.2 with depth := inner.2.depth - 1 }) := by
  have hblank : Text.isBlankText rule ≠ true := by
    intro hblank
    rw [Rule.pipeline_of_blank _ hblank] at hstage
    simp at hstage
  have hgo : ¬ (Limits.ruleDepth ≤ s.depth || Text.isBlankText rule) = true := by
    simpa [hblank] using hdepth
  rw [run_of_go hgo, hstage, List.foldlM_cons]
  simp only [List.foldlM_nil, bind_pure]

end BookRules.Finding
