import BookRules.Proofs.Finding.Stages
import BookRules.Proofs.Rule.Puts

/-!
# Fields are independent

Evaluating a rule that binds no variables leaves nothing behind but pipelines that are
remembered, and what it finds does not depend on the pipelines that were remembered
before.  Both facts are kept together, since the second one is what makes the first one
hold again after another rule was evaluated: `LeavesNoTrace` is preserved by sequencing,
and every part of an evaluation has it as long as the rules in placeholders do, which is
an induction on how deep rules may still be nested.
-/

namespace BookRules.Finding

open BookRules.Rule (MentionsPut)

/-- A session as it is without the pipelines that are remembered. -/
def Session.forget (s : Session) : Session :=
  { s with cache := {} }

/-- Sessions that differ in the remembered pipelines only give the same answer, and the
session differs in them only afterwards. -/
def LeavesNoTrace {α : Type} (m : Eval α) : Prop :=
  ∀ s t : Session, s.forget = t.forget →
    (m.run s).1 = (m.run t).1 ∧ (m.run s).2.forget = s.forget

theorem leavesNoTrace_iff_matches {α : Type} {m : Eval α} :
    LeavesNoTrace m ↔ ∀ shown, Matches (BothShow Session.forget shown) m m :=
  keeps_iff_matches

namespace LeavesNoTrace

variable {α β : Type} {m : Eval α}

theorem pure (a : α) : LeavesNoTrace (Pure.pure a : Eval α) :=
  Keeps.pure a

theorem bind {f : α → Eval β} (hm : LeavesNoTrace m) (hf : ∀ a, LeavesNoTrace (f a)) :
    LeavesNoTrace (m >>= f) :=
  Keeps.bind hm hf

theorem map {f : α → β} (hm : LeavesNoTrace m) : LeavesNoTrace (do return f (← m)) :=
  Keeps.map hm

/-- Reading what is not remembered leaves no trace. -/
theorem read {f : Session → α} (hf : ∀ s t : Session, s.forget = t.forget → f s = f t) :
    LeavesNoTrace (do return f (← get)) :=
  Keeps.read hf

end LeavesNoTrace

theorem Session.eq_of_forget_eq {s t : Session} (h : s.forget = t.forget) :
    s.context = t.context ∧ s.content = t.content ∧ s.depth = t.depth := by
  cases s
  cases t
  simpa [Session.forget, and_comm, and_assoc, and_left_comm] using h

theorem sameContext_bothShow_forget (shown : Session) :
    SameContext (BothShow Session.forget shown) :=
  fun _ _ hst => (Session.eq_of_forget_eq (hst.1.trans hst.2.symm)).1

/-! ## Evaluation -/

/-- A rule without the mark that binds variables leaves no trace, wherever its
evaluation starts and however deep rules may be nested. -/
theorem run_leavesNoTrace (fuel : Nat) (shape : Shape) {rule : String}
    (hrule : ¬ MentionsPut rule.toList) : LeavesNoTrace (run fuel shape rule) := by
  induction fuel generalizing shape rule with
  | zero => exact LeavesNoTrace.pure none
  | succ fuel ih =>
      intro s t hst
      obtain ⟨hcontext, hcontent, hdepth⟩ := Session.eq_of_forget_eq hst
      have hnested : ∀ body : String, ¬ MentionsPut body.toList →
          LeavesNoTrace (nestedText fuel body) :=
        fun body hbody => (ih .string hbody).map
      have hstages : LeavesNoTrace ((Rule.pipeline (contentOf s.content) rule).foldlM
          (runStage (nestedText fuel) shape) (.node s.content)) := by
        rw [leavesNoTrace_iff_matches]
        intro shown
        apply Matches.foldlM
        intro stage hstage input
        have hbinds := Rule.bindsNothing_of_mem_pipeline hrule hstage
        apply runStage_matches (sameContext_bothShow_forget shown) hbinds.bindings
        intro body hbody
        exact leavesNoTrace_iff_matches.1 (hnested body (hbinds.nested body hbody)) shown
      by_cases hstop : (Limits.ruleDepth ≤ s.depth || Text.isBlankText rule) = true
      · have hstop' : (Limits.ruleDepth ≤ t.depth || Text.isBlankText rule) = true := by
          rw [← hdepth]
          exact hstop
        rw [run_of_stop hstop, run_of_stop hstop']
        exact ⟨rfl, rfl⟩
      · have hstop' : ¬ (Limits.ruleDepth ≤ t.depth || Text.isBlankText rule) = true := by
          rw [← hdepth]
          exact hstop
        rw [run_of_go hstop, run_of_go hstop', ← hcontent]
        -- one level deeper the two sessions still differ in what is remembered only
        have hdeeper : Session.forget
              { s with
                cache := (s.cache.fetch (contentOf s.content) rule).2
                depth := s.depth + 1 } =
            Session.forget
              { t with
                content := s.content
                cache := (t.cache.fetch (contentOf s.content) rule).2
                depth := t.depth + 1 } := by
          simp [Session.forget, hcontext, hdepth]
        obtain ⟨hanswer, hafter⟩ := hstages _ _ hdeeper
        obtain ⟨hcontext', hcontent', hdepth'⟩ := Session.eq_of_forget_eq hafter
        constructor
        · exact congrArg some hanswer
        · simp [Session.forget, hcontext', hcontent', hdepth']

/-! ## Calls -/

/-- A call for one field of the node that is bound. -/
inductive FieldCall
  | text (rule : String)
  | texts (rule : String)
  | nodes (rule : String)
  | url (rule : String)
  | urls (rule : String)

/-- What a call gives. -/
inductive FieldAnswer
  | text (found : Option String)
  | texts (found : Option (List String))
  | nodes (found : List Node)

namespace FieldCall

def rule : FieldCall → String
  | .text rule | .texts rule | .nodes rule | .url rule | .urls rule => rule

/-- Make a call. -/
def perform : FieldCall → Eval FieldAnswer
  | .text rule => return .text (← Bound.string? rule)
  | .texts rule => return .texts (← Bound.strings? rule)
  | .nodes rule => return .nodes (← Bound.elements rule)
  | .url rule => return .text (← Bound.url? rule)
  | .urls rule => return .texts (← Bound.urls? rule)

end FieldCall

theorem string?_leavesNoTrace {rule : String} (hrule : ¬ MentionsPut rule.toList) :
    LeavesNoTrace (Bound.string? rule) :=
  (run_leavesNoTrace Limits.ruleDepth .string hrule).map

theorem strings?_leavesNoTrace {rule : String} (hrule : ¬ MentionsPut rule.toList) :
    LeavesNoTrace (Bound.strings? rule) :=
  (run_leavesNoTrace Limits.ruleDepth .list hrule).map

theorem elements_leavesNoTrace {rule : String} (hrule : ¬ MentionsPut rule.toList) :
    LeavesNoTrace (Bound.elements rule) := by
  unfold Bound.elements
  split
  next patterns hrows =>
    apply LeavesNoTrace.read
    intro s t hst
    rw [(Session.eq_of_forget_eq hst).2.1]
  next =>
    have htrimmed : ¬ MentionsPut (String.ofList (Text.trim rule.toList)).toList := by
      rw [String.toList_ofList]
      exact fun h => hrule (h.of_isInfix (Text.trim_isInfix rule.toList))
    apply (run_leavesNoTrace Limits.ruleDepth .elements htrimmed).bind
    intro found
    split <;> exact LeavesNoTrace.pure _

theorem url?_leavesNoTrace {rule : String} (hrule : ¬ MentionsPut rule.toList) :
    LeavesNoTrace (Bound.url? rule) := by
  unfold Bound.url?
  split_ifs
  · apply LeavesNoTrace.read
    intro s t hst
    rw [(Session.eq_of_forget_eq hst).1]
  · apply (strings?_leavesNoTrace hrule).bind
    intro items
    apply LeavesNoTrace.read
    intro s t hst
    rw [(Session.eq_of_forget_eq hst).1]

theorem urls?_leavesNoTrace {rule : String} (hrule : ¬ MentionsPut rule.toList) :
    LeavesNoTrace (Bound.urls? rule) := by
  unfold Bound.urls?
  split_ifs
  · apply LeavesNoTrace.read
    intro s t hst
    rw [(Session.eq_of_forget_eq hst).1]
  · apply (strings?_leavesNoTrace hrule).bind
    intro items
    apply LeavesNoTrace.read
    intro s t hst
    rw [(Session.eq_of_forget_eq hst).1]

theorem perform_leavesNoTrace {call : FieldCall} (hrule : ¬ MentionsPut call.rule.toList) :
    LeavesNoTrace call.perform := by
  cases call with
  | text rule => exact (string?_leavesNoTrace hrule).map
  | texts rule => exact (strings?_leavesNoTrace hrule).map
  | nodes rule => exact (elements_leavesNoTrace hrule).map
  | url rule => exact (url?_leavesNoTrace hrule).map
  | urls rule => exact (urls?_leavesNoTrace hrule).map

/-- Answers do not depend on the calls made before. -/
theorem answers_mapM_perform {calls : List FieldCall}
    (hcalls : ∀ call ∈ calls, ¬ MentionsPut call.rule.toList) (s : Session) :
    ((calls.mapM FieldCall.perform).run s).1 =
      calls.map fun call => (call.perform.run s.forget).1 := by
  have hkeeps : ∀ call ∈ calls, Keeps Session.forget call.perform :=
    fun call hcall => perform_leavesNoTrace (hcalls call hcall)
  exact Keeps.answers_mapM hkeeps rfl

/-- Calls for fields do not bear on one another. -/
theorem fields_independent :
    (∀ (call : FieldCall) (s : Session), ¬ MentionsPut call.rule.toList →
      let after := (call.perform.run s).2
      after.content = s.content ∧ after.depth = s.depth ∧ after.context = s.context) ∧
    ∀ (calls : List FieldCall) (s : Session), s.depth = 0 →
      (∀ call ∈ calls, ¬ MentionsPut call.rule.toList) →
      ((calls.mapM FieldCall.perform).run s).1 =
        calls.map fun call =>
          (call.perform.run { context := s.context, content := s.content }).1 := by
  constructor
  · intro call s hrule
    obtain ⟨hcontext, hcontent, hdepth⟩ :=
      Session.eq_of_forget_eq (perform_leavesNoTrace hrule s s rfl).2
    exact ⟨hcontent, hdepth, hcontext⟩
  · intro calls s hdepth hcalls
    have hfresh : s.forget = { context := s.context, content := s.content } := by
      simp [Session.forget, hdepth]
    rw [← hfresh]
    exact answers_mapM_perform hcalls s

/-- A rule inside a rule and a script that fails, a cut into rows, and an address. -/
def mixedCalls : List FieldCall :=
  [.text "\x7b\x7b$.a\x7d\x7d-\x7b\x7b1/0\x7d\x7d-@get:\x7bk\x7d", .nodes ":(a)", .url "@json:$.a"]

theorem fields_independent_nested :
    (∀ call ∈ mixedCalls, ¬ MentionsPut call.rule.toList) ∧
    (∀ call ∈ mixedCalls,
      (call.perform.run { context := {}, content := .text "a", depth := 3 }).2.depth = 3) ∧
    ((mixedCalls.mapM FieldCall.perform).run { context := {}, content := .text "a" }).1 =
      mixedCalls.map fun call =>
        (call.perform.run { context := {}, content := .text "a" }).1 := by
  have hcalls : ∀ call ∈ mixedCalls, ¬ MentionsPut call.rule.toList := by decide +kernel
  exact ⟨hcalls, fun call hcall => (fields_independent.1 call _ (hcalls call hcall)).2.1,
    fields_independent.2 mixedCalls { context := {}, content := .text "a" } rfl hcalls⟩

end BookRules.Finding
