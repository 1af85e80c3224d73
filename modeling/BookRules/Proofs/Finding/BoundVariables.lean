import BookRules.Proofs.Bindings
import BookRules.Proofs.Finding.Independence
import BookRules.Proofs.Rule.Holes

/-!
# Variables that a stage binds

A placeholder ends at the first pair of closing braces, so the rule in it holds no such pair
and has no placeholders of its own.  A rule that binds no variables therefore nests two
levels deep at most.  What it finds depends on the depth it starts from only as far as these
two levels are still allowed, and on the fuel for them not at all.

A stage binds its variables in the order of their names before anything else of it is
evaluated.  The rule of a variable reads the node that is bound, and finds the variables that
were bound before it.
-/

namespace BookRules.Finding

section Nesting

open BookRules.Rule (MentionsPut Stage)

variable {fuel fuel' d d' : Nat} {shape : Shape} {rule : String} {context : Context}
  {content : Node}

/-! ## Placeholders in placeholders -/

/-- A pair of braces that closes a placeholder. -/
def Closes (cs : List Char) : Prop :=
  ['\x7d', '\x7d'] <:+: cs

theorem closes_of_placeholder? {cs after : List Char} {body : String}
    (h : Rule.Segment.placeholder? cs = some (.rule body, after)) :
    Closes cs ∧ ¬ Closes body.toList := by
  obtain ⟨hole, hstands, -, hsegment⟩ := Rule.Segment.placeholder?_eq_some_iff.1 h
  cases hstands with
  | lookup => cases hsegment
  | group => cases hsegment
  | @braces inner _ _ hbraces =>
      obtain ⟨rfl, hfirst⟩ := hbraces
      have hbody : body.toList <:+: inner ++ ['\x7d'] :=
        (Rule.Segment.ofBody_eq_rule hsegment).trans (List.prefix_append inner ['\x7d']).isInfix
      exact ⟨⟨'\x7b' :: '\x7b' :: inner, after, by simp⟩, fun h => hfirst (h.trans hbody)⟩

theorem exists_placeholder?_of_mem_pipeline (hrule : ¬ MentionsPut rule.toList)
    {kind : Rule.Content} {stage : Stage} (hstage : stage ∈ Rule.pipeline kind rule)
    {body : String} (hbody : .rule body ∈ stage.segments) :
    ∃ tail after, tail <:+: rule.toList ∧
      Rule.Segment.placeholder? tail = some (.rule body, after) := by
  rcases Rule.exists_of_mem_pipeline hstage with ⟨source, rfl⟩ | ⟨text, htext, rfl⟩
  · simp [Stage.ofScript] at hbody
  · have hputs : ¬ MentionsPut text := fun hmentions => hrule (hmentions.of_isInfix htext)
    obtain ⟨tail, after, htail, hplaceholder⟩ :=
      Stage.exists_placeholder?_of_mem_parse kind hputs hbody
    exact ⟨tail, after, htail.trans htext, hplaceholder⟩

/-! ## Depths -/

/-- Sessions with the same context and the same node, at two depths. -/
structure AtDepths (context : Context) (content : Node) (d d' : Nat) (s t : Session) : Prop where
  contexts : s.context = context ∧ t.context = context
  contents : s.content = content ∧ t.content = content
  depths : s.depth = d ∧ t.depth = d'

theorem sameContext_atDepths : SameContext (AtDepths context content d d') :=
  fun _ _ h => h.contexts.1.trans h.contexts.2.symm

/-- A level that both depths allow, or neither. -/
theorem run_matches_of_stages
    (hroom : d < Limits.ruleDepth ↔ d' < Limits.ruleDepth)
    (hstages : ∀ stage ∈ Rule.pipeline (contentOf content) rule, ∀ input,
      Matches (AtDepths context content (d + 1) (d' + 1))
        (runStage (nestedText fuel) shape input stage)
        (runStage (nestedText fuel') shape input stage)) :
    Matches (AtDepths context content d d') (run (fuel + 1) shape rule)
      (run (fuel' + 1) shape rule) := by
  rintro s t ⟨⟨rfl, hcontext⟩, ⟨rfl, hcontent⟩, ⟨rfl, rfl⟩⟩
  have hdeep : Limits.ruleDepth ≤ s.depth ↔ Limits.ruleDepth ≤ t.depth := by omega
  have hboth : (Limits.ruleDepth ≤ s.depth || Text.isBlankText rule) =
      (Limits.ruleDepth ≤ t.depth || Text.isBlankText rule) := by
    rw [decide_eq_decide.2 hdeep]
  by_cases hstop : (Limits.ruleDepth ≤ s.depth || Text.isBlankText rule) = true
  · have hstop' := hboth ▸ hstop
    rw [run_of_stop hstop, run_of_stop hstop']
    exact ⟨rfl, ⟨rfl, hcontext⟩, ⟨rfl, hcontent⟩, ⟨rfl, rfl⟩⟩
  · have hstop' := hboth ▸ hstop
    rw [run_of_go hstop, run_of_go hstop', hcontent]
    have hlevel := Matches.foldlM hstages (.node s.content)
    obtain ⟨hanswer, hafter⟩ := hlevel
      { s with
        cache := (s.cache.fetch (contentOf s.content) rule).2
        depth := s.depth + 1 }
      { t with
        content := s.content
        cache := (t.cache.fetch (contentOf s.content) rule).2
        depth := t.depth + 1 }
      ⟨⟨rfl, hcontext⟩, ⟨rfl, rfl⟩, ⟨rfl, rfl⟩⟩
    refine ⟨congrArg some hanswer, hafter.contexts, hafter.contents, ?_, ?_⟩
    · dsimp only
      rw [hafter.depths.1, Nat.add_sub_cancel]
    · dsimp only
      rw [hafter.depths.2, Nat.add_sub_cancel]

/-- A rule that holds no placeholder is one level. -/
theorem run_matches_of_not_closes (hrule : ¬ MentionsPut rule.toList)
    (hflat : ¬ Closes rule.toList) (hroom : d < Limits.ruleDepth ↔ d' < Limits.ruleDepth)
    (fuel fuel' : Nat) (shape : Shape) :
    Matches (AtDepths context content d d') (run (fuel + 1) shape rule)
      (run (fuel' + 1) shape rule) := by
  apply run_matches_of_stages hroom
  intro stage hstage input
  have hbinds := Rule.bindsNothing_of_mem_pipeline hrule hstage
  apply runStage_matches sameContext_atDepths hbinds.bindings
  intro body hbody
  obtain ⟨tail, after, htail, hplaceholder⟩ :=
    exists_placeholder?_of_mem_pipeline hrule hstage hbody
  exact absurd ((closes_of_placeholder? hplaceholder).1.trans htail) hflat

/-- A rule that binds no variables is two levels at most. -/
theorem run_matches (hrule : ¬ MentionsPut rule.toList)
    (hroom : d < Limits.ruleDepth ↔ d' < Limits.ruleDepth)
    (hinner : d + 1 < Limits.ruleDepth ↔ d' + 1 < Limits.ruleDepth)
    (fuel fuel' : Nat) (shape : Shape) :
    Matches (AtDepths context content d d') (run (fuel + 2) shape rule)
      (run (fuel' + 2) shape rule) := by
  apply run_matches_of_stages hroom
  intro stage hstage input
  have hbinds := Rule.bindsNothing_of_mem_pipeline hrule hstage
  apply runStage_matches sameContext_atDepths hbinds.bindings
  intro body hbody
  obtain ⟨tail, after, htail, hplaceholder⟩ :=
    exists_placeholder?_of_mem_pipeline hrule hstage hbody
  have hflat := (closes_of_placeholder? hplaceholder).2
  exact (run_matches_of_not_closes (hbinds.nested body hbody) hflat hinner fuel fuel' .string).map

/-- Rules inside a rule have fuel enough. -/
theorem nestedText_matches (hrule : ¬ MentionsPut rule.toList) (fuel : Nat) :
    Matches (AtDepths context content d d) (nestedText (fuel + 2) rule) (Bound.string? rule) :=
  (run_matches hrule Iff.rfl Iff.rfl fuel 14 .string).map

theorem string?_matches (hrule : ¬ MentionsPut rule.toList)
    (hroom : d < Limits.ruleDepth ↔ d' < Limits.ruleDepth)
    (hinner : d + 1 < Limits.ruleDepth ↔ d' + 1 < Limits.ruleDepth) :
    Matches (AtDepths context content d d') (Bound.string? rule) (Bound.string? rule) :=
  (run_matches hrule hroom hinner 14 14 .string).map

end Nesting

section Binding

open BookRules.Rule (MentionsPut Stage)

variable {shape : Shape} {rule name : String} {context : Context} {content : Node} {depth : Nat}
  {bindings : Bindings} {stage : Stage} {s : Session}

/-- The text a variable is bound to: what its rule finds, or else the rule itself. -/
def boundText (content : Node) (depth : Nat) (context : Context) (rule : String) : String :=
  ((Bound.string? rule).run { context, content, depth }).1.getD rule

/-- A context with variables bound one after the other. -/
def bindAll (content : Node) (depth : Nat) (context : Context) (bindings : Bindings) : Context :=
  bindings.foldl
    (fun context (name, rule) => context.put name (boundText content depth context rule)) context

/-! ## Contexts -/

theorem bindAll_fixes (content : Node) (depth : Nat) (context : Context) (bindings : Bindings) :
    let after := bindAll content depth context bindings
    after.book = context.book ∧ after.source = context.source ∧
      after.baseUrl = context.baseUrl := by
  unfold bindAll
  induction bindings generalizing context with
  | nil => exact ⟨rfl, rfl, rfl⟩
  | cons binding rest ih => exact ih _

theorem get?_bindAll_of_not_mem (h : name ∉ bindings.map Prod.fst) :
    (bindAll content depth context bindings).stored.get? name = context.stored.get? name := by
  unfold bindAll
  induction bindings generalizing context with
  | nil => rfl
  | cons binding rest ih =>
      rw [List.map_cons, List.mem_cons, not_or] at h
      rw [List.foldl_cons, ih h.2]
      exact (Bindings.get?_set _ _ _ _).trans (if_neg (Ne.symm h.1))

theorem get?_bindAll_append {front back : Bindings} (hlast : name ∉ back.map Prod.fst) :
    (bindAll content depth context (front ++ (name, rule) :: back)).stored.get? name =
      some (boundText content depth (bindAll content depth context front) rule) := by
  have hsplit : bindAll content depth context (front ++ (name, rule) :: back) =
      bindAll content depth
        ((bindAll content depth context front).put name
          (boundText content depth (bindAll content depth context front) rule)) back := by
    unfold bindAll
    rw [List.foldl_append, List.foldl_cons]
  rw [hsplit, get?_bindAll_of_not_mem hlast, Context.put, Bindings.get?_set, if_pos rfl]

theorem not_mem_of_ordered {front back : Bindings}
    (h : Bindings.Ordered (front ++ (name, rule) :: back)) : name ∉ back.map Prod.fst := by
  have hbehind := (List.pairwise_cons.1 (List.pairwise_append.1 h).2.1).1
  intro hmem
  obtain ⟨binding, hbinding, rfl⟩ := List.mem_map.1 hmem
  exact lt_irrefl _ (hbehind binding hbinding)

theorem ordered_of_mem_pipeline {kind : Rule.Content} (h : stage ∈ Rule.pipeline kind rule) :
    Bindings.Ordered stage.bindings := by
  rcases Rule.exists_of_mem_pipeline h with ⟨source, rfl⟩ | ⟨text, -, rfl⟩
  · exact List.Pairwise.nil
  · exact Bindings.ordered_ofPairs _

/-! ## Binding -/

theorem bindVariables_cons_run (nested : Nested) (rest : Bindings) (s : Session) :
    (bindVariables nested ((name, rule) :: rest) (.node s.content)).run s =
      (bindVariables nested rest (.node s.content)).run
        { ((nested rule).run s).2 with
          content := s.content
          context := ((nested rule).run s).2.context.put name
            (((nested rule).run s).1.getD rule) } :=
  rfl

/-- The rules of variables are read as rules are read from outside. -/
def ReadsRules (nested : Nested) : Prop :=
  ∀ (rule : String) (context : Context) (content : Node) (depth : Nat),
    ¬ MentionsPut rule.toList →
      Matches (AtDepths context content depth depth) (nested rule) (Bound.string? rule)

theorem bindVariables_run {nested : Nested} (hnested : ReadsRules nested)
    (hrules : ∀ binding ∈ bindings, ¬ MentionsPut binding.2.toList) (s : Session) :
    let after := ((bindVariables nested bindings (.node s.content)).run s).2
    after.context = bindAll s.content s.depth s.context bindings ∧
      after.content = s.content ∧ after.depth = s.depth := by
  induction bindings generalizing s with
  | nil => exact ⟨rfl, rfl, rfl⟩
  | cons binding rest ih =>
      obtain ⟨name, rule⟩ := binding
      rw [List.forall_mem_cons] at hrules
      -- the rule finds what it finds in a session that remembers nothing
      obtain ⟨hfound, hafter⟩ := hnested rule s.context s.content s.depth hrules.1 s
        { context := s.context, content := s.content, depth := s.depth }
        ⟨⟨rfl, rfl⟩, ⟨rfl, rfl⟩, ⟨rfl, rfl⟩⟩
      have hcontext := hafter.contexts.1
      have hdepth := hafter.depths.1
      rw [bindVariables_cons_run]
      generalize (nested rule).run s = found at hfound hcontext hdepth ⊢
      have hrest := ih hrules.2 { found.2 with
        content := s.content
        context := found.2.context.put name (found.1.getD rule) }
      dsimp only at hrest ⊢
      rw [hcontext, hdepth, hfound] at hrest ⊢
      exact hrest

theorem runStage_eq (nested : Nested) (shape : Shape) (input : Found) (stage : Stage) :
    runStage nested shape input stage =
      (bindVariables nested stage.bindings input >>= fun _ =>
        runStage nested shape input { stage with bindings := [] }) :=
  rfl

theorem runStage_matches_bound {nested : Nested} (hnested : ReadsRules nested)
    (hplaceholders : ∀ body, .rule body ∈ stage.segments → ¬ MentionsPut body.toList)
    (shape : Shape) (input : Found) :
    Matches (AtDepths context content depth depth)
      (runStage nested shape input { stage with bindings := [] })
      (runStage Bound.string? shape input { stage with bindings := [] }) := by
  apply runStage_matches sameContext_atDepths rfl
  intro body hbody
  exact hnested body context content depth (hplaceholders body hbody)

/-- A stage with variables is the stage without them, in the context they are bound in. -/
theorem runStage_run {nested : Nested} (hnested : ReadsRules nested)
    (hrules : ∀ binding ∈ stage.bindings, ¬ MentionsPut binding.2.toList)
    (hplaceholders : ∀ body, .rule body ∈ stage.segments → ¬ MentionsPut body.toList)
    (shape : Shape) (s : Session) :
    let bound := bindAll s.content s.depth s.context stage.bindings
    ((runStage nested shape (.node s.content) stage).run s).1 =
        ((runStage Bound.string? shape (.node s.content) { stage with bindings := [] }).run
          { context := bound, content := s.content, depth := s.depth }).1 ∧
      let after := ((runStage nested shape (.node s.content) stage).run s).2
      after.context = bound ∧ after.content = s.content ∧ after.depth = s.depth := by
  intro bound
  obtain ⟨hcontext, hcontent, hdepth⟩ := bindVariables_run hnested hrules s
  rw [runStage_eq, run_bind]
  generalize ((bindVariables nested stage.bindings (.node s.content)).run s).2 = after
    at hcontext hcontent hdepth ⊢
  have hstage : Matches (AtDepths bound s.content s.depth s.depth) _ _ :=
    runStage_matches_bound hnested hplaceholders shape (.node s.content)
  obtain ⟨hfound, hafter⟩ := hstage after
    { context := bound, content := s.content, depth := s.depth }
    ⟨⟨hcontext, rfl⟩, ⟨hcontent, rfl⟩, ⟨hdepth, rfl⟩⟩
  exact ⟨hfound, hafter.contexts.1, hafter.contents.1, hafter.depths.1⟩

/-! ## Calls -/

namespace Shape

def call (rule : String) : Shape → FieldCall
  | .string => .text rule
  | .list => .texts rule
  | .elements => .nodes rule

/-- The rule that is evaluated. -/
def evaluated (rule : String) : Shape → String
  | .string => rule
  | .list => rule
  | .elements => Text.trimmed rule

/-- What a call gives where its rule finds this. -/
def answer : Shape → Option Found → FieldAnswer
  | .string, found? => .text (found?.bind Found.text?)
  | .list, found? =>
    let items := (found?.map Found.toList).getD []
    .texts (if items.isEmpty then none else some items)
  | .elements, some (.nodes ns) => .nodes ns
  | .elements, some found => .nodes found.toNodes
  | .elements, none => .nodes []

/-- A rule that cuts a text into rows is not evaluated. -/
def CutsRows (rule : String) (shape : Shape) : Prop :=
  shape = .elements ∧ (Text.trim rule.toList).head? = some ':'

theorem perform_call (h : ¬ shape.CutsRows rule) :
    (shape.call rule).perform =
      (do return shape.answer (← run Limits.ruleDepth shape (shape.evaluated rule))) := by
  cases shape with
  | string => rfl
  | list => rfl
  | elements =>
      change (Bound.elements rule >>= fun ns => pure (FieldAnswer.nodes ns)) = _
      unfold Bound.elements
      split
      next patterns hcut => exact absurd ⟨rfl, by rw [hcut]; rfl⟩ h
      next =>
        rw [bind_assoc]
        apply bind_congr
        intro found?
        rcases found? with _ | (_ | _ | _ | _) <;> rfl

theorem call_run (h : ¬ shape.CutsRows rule) (s : Session) :
    (shape.call rule).perform.run s =
      (shape.answer ((run Limits.ruleDepth shape (shape.evaluated rule)).run s).1,
        ((run Limits.ruleDepth shape (shape.evaluated rule)).run s).2) := by
  rw [perform_call h]
  rfl

end Shape

theorem boundText_eq_of_room (hrule : ¬ MentionsPut rule.toList)
    (hroom : depth + 1 < Limits.ruleDepth) :
    boundText content depth context rule = boundText content 0 context rule := by
  have hmatches : Matches (AtDepths context content depth 0) (Bound.string? rule)
      (Bound.string? rule) := by
    apply string?_matches hrule <;> omega
  obtain ⟨hfound, -⟩ := hmatches { context, content, depth } { context, content, depth := 0 }
    ⟨⟨rfl, rfl⟩, ⟨rfl, rfl⟩, ⟨rfl, rfl⟩⟩
  rw [boundText, boundText, hfound]

theorem run_of_stage (hdepth : s.depth < Limits.ruleDepth)
    (hstage : Rule.pipeline (contentOf s.content) rule = [stage])
    (hrules : ∀ binding ∈ stage.bindings, ¬ MentionsPut binding.2.toList)
    (hplaceholders : ∀ body, .rule body ∈ stage.segments → ¬ MentionsPut body.toList)
    (shape : Shape) :
    let bound := bindAll s.content (s.depth + 1) s.context stage.bindings
    ((run Limits.ruleDepth shape rule).run s).1 =
        some ((runStage Bound.string? shape (.node s.content) { stage with bindings := [] }).run
          { context := bound, content := s.content, depth := s.depth + 1 }).1 ∧
      let after := ((run Limits.ruleDepth shape rule).run s).2
      after.context = bound ∧ after.content = s.content ∧ after.depth = s.depth := by
  intro bound
  have hnested : ReadsRules (nestedText (13 + 2)) :=
    fun _ _ _ _ hrule => nestedText_matches hrule 13
  have hlevel := runStage_run hnested hrules hplaceholders shape
    { s with
      cache := (s.cache.fetch (contentOf s.content) rule).2
      depth := s.depth + 1 }
  obtain ⟨hfound, hcontext, hcontent, hdepth'⟩ := hlevel
  have hrun : (run Limits.ruleDepth shape rule).run s = _ := run_of_single hdepth hstage
  rw [hrun]
  refine ⟨congrArg some hfound, hcontext, hcontent, ?_⟩
  dsimp only
  rw [hdepth']
  rfl

/-- A call for a rule of one stage stores its variables and changes nothing else.  Each of them
holds what its rule finds once those in front of it are stored, or else the rule; and the rest
of the stage is evaluated when all are stored, whatever comes of it.  From how deep the call is
made bears on a variable only where rules can be nested no further. -/
theorem stage_binds_variables (shape : Shape) (rule : String) (s : Session) (stage : Stage)
    (hrows : ¬ shape.CutsRows rule) (hdepth : s.depth < Limits.ruleDepth)
    (hstage : Rule.pipeline (contentOf s.content) (shape.evaluated rule) = [stage])
    (hrules : ∀ binding ∈ stage.bindings, ¬ MentionsPut binding.2.toList)
    (hplaceholders : ∀ body, .rule body ∈ stage.segments → ¬ MentionsPut body.toList) :
    let result := (shape.call rule).perform.run s
    let after := result.2
    Bindings.Ordered stage.bindings ∧
    (∀ front name rule back, stage.bindings = front ++ (name, rule) :: back →
      after.context.stored.get? name =
        some (boundText s.content (s.depth + 1)
          (bindAll s.content (s.depth + 1) s.context front) rule)) ∧
    (∀ name, name ∉ stage.bindings.map Prod.fst →
      after.context.stored.get? name = s.context.stored.get? name) ∧
    (after.context.book = s.context.book ∧ after.context.source = s.context.source ∧
      after.context.baseUrl = s.context.baseUrl ∧ after.content = s.content ∧
      after.depth = s.depth) ∧
    result.1 = shape.answer (some
      ((runStage Bound.string? shape (.node s.content) { stage with bindings := [] }).run
        { context := after.context, content := s.content, depth := s.depth + 1 }).1) ∧
    (s.depth + 2 < Limits.ruleDepth → ∀ binding ∈ stage.bindings, ∀ context,
      boundText s.content (s.depth + 1) context binding.2 =
        boundText s.content 0 context binding.2) := by
  have hordered : Bindings.Ordered stage.bindings := by
    apply ordered_of_mem_pipeline
    rw [hstage]
    exact List.mem_cons_self
  obtain ⟨hfound, hcontext, hcontent, hdepth'⟩ :=
    run_of_stage hdepth hstage hrules hplaceholders shape
  obtain ⟨hbook, hsource, hbaseUrl⟩ :=
    bindAll_fixes s.content (s.depth + 1) s.context stage.bindings
  have hcall := Shape.call_run hrows s
  dsimp only
  rw [hcall]
  dsimp only at hfound hcontext hcontent hdepth' ⊢
  rw [hcontext, hfound]
  refine ⟨hordered, fun front name rule back hsplit => ?_, fun name hname => ?_,
    ⟨hbook, hsource, hbaseUrl, hcontent, hdepth'⟩, rfl, fun hroom binding hbinding context => ?_⟩
  · rw [hsplit]
    exact get?_bindAll_append (not_mem_of_ordered (hsplit ▸ hordered))
  · exact get?_bindAll_of_not_mem hname
  · exact boundText_eq_of_room (hrules binding hbinding) hroom

/-- The second variable reads the first one, which comes behind it in the text, and a
variable that was stored before; the placeholder reads the second one. -/
theorem stage_binds_variables_reading :
    let rule := "@put:\x7b\"b\":\"@get:\x7ba\\u007d!\",\"a\":\"@get:\x7bz\\u007d\"\x7d" ++
      "@get:\x7bb\x7d\x7b\x7b@css:p@text\x7d\x7d"
    let s : Session := { context := { stored := [("b", "old"), ("z", "kept")] }, depth := 3 }
    let stage : Stage :=
      { mode := .template
        expression := "@get:\x7bb\x7d\x7b\x7b@css:p@text\x7d\x7d"
        bindings := [("a", "@get:\x7bz\x7d"), ("b", "@get:\x7ba\x7d!")]
        segments := [.variable "b", .rule "@css:p@text"] }
    let after := ((Shape.string.call rule).perform.run s).2
    ¬ Shape.string.CutsRows rule ∧ s.depth < Limits.ruleDepth ∧
      Rule.pipeline (contentOf s.content) (Shape.string.evaluated rule) = [stage] ∧
      (∀ binding ∈ stage.bindings, ¬ MentionsPut binding.2.toList) ∧
      (∀ body, .rule body ∈ stage.segments → ¬ MentionsPut body.toList) ∧
      after.context.stored.get? "a" = some "kept" ∧
      after.context.stored.get? "b" = some "kept!" ∧
      after.context.stored.get? "z" = some "kept" ∧ after.depth = 3 ∧
      ((Shape.string.call rule).perform.run s).1 = .text (some "kept!") := by
  intro rule s stage after
  have hrows : ¬ Shape.string.CutsRows rule := fun h => by cases h.1
  have hdepth : s.depth < Limits.ruleDepth := by decide
  have hstage : Rule.pipeline (contentOf s.content) (Shape.string.evaluated rule) = [stage] := by
    decide +kernel
  have hrules : ∀ binding ∈ stage.bindings, ¬ MentionsPut binding.2.toList := by decide +kernel
  have hplaceholders : ∀ body, .rule body ∈ stage.segments → ¬ MentionsPut body.toList := by
    intro body hbody
    obtain rfl : body = "@css:p@text" := by simpa [stage] using hbody
    decide +kernel
  obtain ⟨-, hbound, hother, ⟨-, -, -, -, hafter⟩, hanswer, -⟩ :=
    stage_binds_variables .string rule s stage hrows hdepth hstage hrules hplaceholders
  refine ⟨hrows, hdepth, hstage, hrules, hplaceholders, ?_, ?_, ?_, hafter, ?_⟩
  · exact (hbound [] "a" _ _ rfl).trans (congrArg some (by decide +kernel))
  · exact (hbound [("a", "@get:\x7bz\x7d")] "b" _ _ rfl).trans (congrArg some (by decide +kernel))
  · exact hother "z" (by decide)
  · exact hanswer.trans (congrArg FieldAnswer.text (by decide +kernel))

end Binding

end BookRules.Finding
