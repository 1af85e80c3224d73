import BookRules.Fetch.Search
import Mathlib.Data.List.Basic

/-!
# The tasks of a search

A search has a task for every source.  A task waits for a permit, makes its request, reads
the answer, and gives the permit back with its outcome, which the search collects.  Tasks
act one at a time but in any order; what is left to each of them is when it acts, and to the
semaphore whom it lets in.

What a task does is its life.  As a task acts in no other way than the step from its stage
allows, the actions of one task in the history of a search are the beginning of a life,
whatever the others do in between.
-/

namespace BookRules.Search

/-- What a task can do. -/
inductive Action
  | start
  /-- Take a permit. -/
  | enter
  | send (request : Request)
  /-- Receive the body of a page, or why there is none. -/
  | answer (body : Except Fault String)
  /-- Give the permit back. -/
  | leave
  /-- Hand the outcome over to the search. -/
  | collect (outcome : Outcome)

namespace Action

@[simp] def request? : Action → Option Request
  | .send request => some request
  | _ => none

@[simp] def outcome? : Action → Option Outcome
  | .collect outcome => some outcome
  | _ => none

end Action

/-- Where a task is. -/
inductive Stage
  | unstarted
  | waiting
  | inside
  | asking (request : Request)
  | answered (outcome : Outcome)
  | left (outcome : Outcome)
  | collected (outcome : Outcome)

namespace Stage

/-- A task that has a permit. -/
def holds : Stage → Bool
  | .inside | .asking _ | .answered _ => true
  | _ => false

/-- A task whose request is open. -/
def isAsking : Stage → Bool
  | .asking _ => true
  | _ => false

def isUnstarted : Stage → Bool
  | .unstarted => true
  | _ => false

/-- A task that can go on by itself. -/
def isActive : Stage → Bool
  | .inside | .asking _ | .answered _ | .left _ => true
  | _ => false

/-- The actions that lead to a stage. -/
def age : Stage → Nat
  | .unstarted => 0
  | .waiting => 1
  | .inside => 2
  | .asking _ => 3
  | .answered _ => 4
  | .left _ => 5
  | .collected _ => 6

end Stage

def outcomeOf (keyword : String) (source : Source) (request : Request)
    (body : Except Fault String) : Outcome :=
  body.map fun body => Page.searchResults source body request.url keyword firstPage

/-- A task of a source acts. -/
inductive Acts (keyword : String) (source : Source) : Stage → Action → Stage → Prop
  | start : Acts keyword source .unstarted .start .waiting
  | enter : Acts keyword source .waiting .enter .inside
  | send {request : Request} (hrequest : Request.ofSearch source keyword firstPage = .ok request) :
      Acts keyword source .inside (.send request) (.asking request)
  | answer {request : Request} (body : Except Fault String) :
      Acts keyword source (.asking request) (.answer body)
        (.answered (outcomeOf keyword source request body))
  | leave {outcome : Outcome} : Acts keyword source (.answered outcome) .leave (.left outcome)
  /-- Without a request there is nothing to ask. -/
  | giveUp {fault : Fault} (hrequest : Request.ofSearch source keyword firstPage = .error fault) :
      Acts keyword source .inside .leave (.left (.error fault))
  | collect {outcome : Outcome} :
      Acts keyword source (.left outcome) (.collect outcome) (.collected outcome)

/-! ## The life of a task -/

/-- What a task does while it has a permit, and its outcome. -/
inductive Visit (keyword : String) (source : Source) : List Action → Outcome → Prop
  | asks {request : Request} (hrequest : Request.ofSearch source keyword firstPage = .ok request)
      (body : Except Fault String) :
      Visit keyword source [.send request, .answer body] (outcomeOf keyword source request body)
  | givesUp {fault : Fault}
      (hrequest : Request.ofSearch source keyword firstPage = .error fault) :
      Visit keyword source [] (.error fault)

/-- All that a task does, and its outcome. -/
def Life (keyword : String) (source : Source) (actions : List Action) (outcome : Outcome) : Prop :=
  ∃ visit, Visit keyword source visit outcome ∧
    actions = [.start, .enter] ++ visit ++ [.leave, .collect outcome]

/-- What a task has done when it is at a stage. -/
def Stage.Past (keyword : String) (source : Source) (actions : List Action) : Stage → Prop
  | .unstarted => actions = []
  | .waiting => actions = [.start]
  | .inside => actions = [.start, .enter]
  | .asking request => Request.ofSearch source keyword firstPage = .ok request ∧
      actions = [.start, .enter, .send request]
  | .answered outcome => ∃ visit, Visit keyword source visit outcome ∧
      actions = [.start, .enter] ++ visit
  | .left outcome => ∃ visit, Visit keyword source visit outcome ∧
      actions = [.start, .enter] ++ visit ++ [.leave]
  | .collected outcome => Life keyword source actions outcome

variable {keyword : String} {source : Source} {stage stage' : Stage} {action : Action}
  {actions : List Action}

theorem Acts.past (h : Acts keyword source stage action stage')
    (hpast : stage.Past keyword source actions) :
    stage'.Past keyword source (actions ++ [action]) := by
  cases h with
  | start =>
      obtain rfl : actions = [] := hpast
      rfl
  | enter =>
      obtain rfl : actions = [.start] := hpast
      rfl
  | send hrequest =>
      obtain rfl : actions = [.start, .enter] := hpast
      exact ⟨hrequest, rfl⟩
  | answer body =>
      obtain ⟨hrequest, rfl⟩ := hpast
      exact ⟨_, .asks hrequest body, rfl⟩
  | leave =>
      obtain ⟨visit, hvisit, rfl⟩ := hpast
      exact ⟨visit, hvisit, rfl⟩
  | giveUp hrequest =>
      obtain rfl : actions = [.start, .enter] := hpast
      exact ⟨[], .givesUp hrequest, rfl⟩
  | collect =>
      obtain ⟨visit, hvisit, rfl⟩ := hpast
      exact ⟨visit, hvisit, by simp⟩

theorem exists_visit (keyword : String) (source : Source) :
    ∃ visit outcome, Visit keyword source visit outcome := by
  cases hrequest : Request.ofSearch source keyword firstPage with
  | ok request => exact ⟨_, _, .asks hrequest (.ok "")⟩
  | error fault => exact ⟨_, _, .givesUp hrequest⟩

/-- What a task has done is the beginning of a life, and all of it once its outcome is
collected. -/
theorem Stage.Past.exists_life (h : stage.Past keyword source actions) :
    ∃ life outcome, Life keyword source life outcome ∧ actions <+: life ∧
      ((∃ outcome, stage = .collected outcome) → actions = life) := by
  obtain ⟨visit, outcome, hvisit⟩ := exists_visit keyword source
  cases stage with
  | unstarted =>
      obtain rfl : actions = [] := h
      exact ⟨_, outcome, ⟨visit, hvisit, rfl⟩, List.nil_prefix, by simp⟩
  | waiting =>
      obtain rfl : actions = [.start] := h
      exact ⟨_, outcome, ⟨visit, hvisit, rfl⟩, by simp, by simp⟩
  | inside =>
      obtain rfl : actions = [.start, .enter] := h
      exact ⟨_, outcome, ⟨visit, hvisit, rfl⟩, by simp, by simp⟩
  | asking request =>
      obtain ⟨hrequest, rfl⟩ := h
      exact ⟨_, _, ⟨_, .asks hrequest (.ok ""), rfl⟩, by simp, by simp⟩
  | answered outcome =>
      obtain ⟨visit, hvisit, rfl⟩ := h
      exact ⟨_, outcome, ⟨visit, hvisit, rfl⟩, by simp, by simp⟩
  | left outcome =>
      obtain ⟨visit, hvisit, rfl⟩ := h
      exact ⟨_, outcome, ⟨visit, hvisit, rfl⟩, by simp, by simp⟩
  | collected outcome => exact ⟨actions, outcome, h, List.prefix_rfl, fun _ => rfl⟩

theorem Acts.age (h : Acts keyword source stage action stage') : stage.age < stage'.age := by
  cases h <;> simp [Stage.age]

/-! ## Runs of the tasks -/

/-- An action of the task at an index. -/
abbrev Event :=
  Nat × Action

/-- The tasks with their sources, in the order in which they are started. -/
abbrev Board :=
  List (Source × Stage)

/-- Whether a permit may be given to the task at an index, after what happened before. -/
abbrev Semaphore :=
  List Event → Nat → Prop

/-- Tasks are started in their order, permits are what the semaphore gives, and outcomes are
collected once all tasks are started. -/
def Allowed (semaphore : Semaphore) (history : List Event) (before after : Board) :
    Action → Prop
  | .start => ∀ task ∈ before, task.2.isUnstarted = false
  | .enter => semaphore history before.length
  | .collect _ => ∀ task ∈ before ++ after, task.2.isUnstarted = false
  | _ => True

/-- One of the tasks acts. -/
inductive Moves (keyword : String) (semaphore : Semaphore) (history : List Event) :
    Board → Event → Board → Prop
  | act {before after : Board} {source : Source} {stage stage' : Stage} {action : Action}
      (hacts : Acts keyword source stage action stage')
      (hallowed : Allowed semaphore history before after action) :
      Moves keyword semaphore history (before ++ (source, stage) :: after)
        (before.length, action) (before ++ (source, stage') :: after)

/-- What can happen in a search of sources, and how their tasks stand then. -/
inductive Runs (keyword : String) (semaphore : Semaphore) (sources : List Source) :
    List Event → Board → Prop
  | begin : Runs keyword semaphore sources [] (sources.map fun source => (source, .unstarted))
  | move {history : List Event} {board board' : Board} {event : Event}
      (hruns : Runs keyword semaphore sources history board)
      (hmoves : Moves keyword semaphore history board event board') :
      Runs keyword semaphore sources (history ++ [event]) board'

/-- All outcomes are collected. -/
def Returned (board : Board) : Prop :=
  ∀ task ∈ board, ∃ outcome, task.2 = .collected outcome

/-- What one task has done. -/
def actionsOf (index : Nat) (history : List Event) : List Action :=
  history.filterMap fun event => if event.1 = index then some event.2 else none

variable {semaphore : Semaphore} {sources : List Source} {history : List Event}
  {board board' before after : Board} {event : Event} {index : Nat}

theorem actionsOf_snoc_self (history : List Event) (index : Nat) (action : Action) :
    actionsOf index (history ++ [(index, action)]) = actionsOf index history ++ [action] := by
  simp [actionsOf]

theorem actionsOf_snoc_of_ne {other : Nat} (h : other ≠ index) (history : List Event)
    (action : Action) :
    actionsOf index (history ++ [(other, action)]) = actionsOf index history := by
  simp [actionsOf, h]

theorem Moves.map_fst (h : Moves keyword semaphore history board event board') :
    board'.map Prod.fst = board.map Prod.fst := by
  cases h
  simp

theorem Runs.map_fst (h : Runs keyword semaphore sources history board) :
    board.map Prod.fst = sources := by
  induction h with
  | begin =>
      rw [List.map_map]
      exact List.map_id sources
  | move _ hmoves ih => rw [hmoves.map_fst, ih]

theorem Runs.length_board (h : Runs keyword semaphore sources history board) :
    board.length = sources.length := by
  rw [← h.map_fst, List.length_map]

theorem getElem?_of_ne (h : index ≠ before.length) (task task' : Source × Stage) :
    (before ++ task' :: after)[index]? = (before ++ task :: after)[index]? := by
  have hset : before ++ task' :: after = (before ++ task :: after).set before.length task' := by
    simp
  rw [hset, List.getElem?_set_ne h.symm]

/-- Every task has done what leads to its stage. -/
theorem Runs.past (h : Runs keyword semaphore sources history board)
    (htask : board[index]? = some (source, stage)) :
    stage.Past keyword source (actionsOf index history) := by
  induction h generalizing source stage with
  | begin =>
      rw [List.getElem?_map, Option.map_eq_some_iff] at htask
      obtain ⟨_, -, heq⟩ := htask
      obtain ⟨rfl, rfl⟩ := Prod.mk.inj heq
      rfl
  | move _ hmoves ih =>
      cases hmoves with
      | @act before after moved stage₁ stage₂ action hacts _ =>
          by_cases hindex : index = before.length
          · subst hindex
            obtain ⟨rfl, rfl⟩ : moved = source ∧ stage₂ = stage := by simpa using htask
            rw [actionsOf_snoc_self]
            exact hacts.past (ih (by simp))
          · rw [actionsOf_snoc_of_ne (Ne.symm hindex)]
            rw [getElem?_of_ne hindex (moved, stage₁)] at htask
            exact ih htask

/-- What a task has done is the beginning of the life of its source. -/
theorem Runs.exists_life (h : Runs keyword semaphore sources history board)
    (hsource : sources[index]? = some source) :
    ∃ life outcome, Life keyword source life outcome ∧ actionsOf index history <+: life ∧
      (Returned board → actionsOf index history = life) := by
  rw [← h.map_fst, List.getElem?_map, Option.map_eq_some_iff] at hsource
  obtain ⟨⟨_, stage⟩, htask, rfl⟩ := hsource
  obtain ⟨life, outcome, hlife, hprefix, hwhole⟩ := (h.past htask).exists_life
  exact ⟨life, outcome, hlife, hprefix, fun hreturned =>
    hwhole (hreturned _ (List.mem_of_getElem? htask))⟩

/-- All actions are those of the tasks of the search. -/
theorem Runs.index_lt (h : Runs keyword semaphore sources history board) :
    ∀ event ∈ history, event.1 < sources.length := by
  induction h with
  | begin => simp
  | move hruns hmoves ih =>
      rw [List.forall_mem_append]
      refine ⟨ih, ?_⟩
      have hlength := hruns.length_board
      cases hmoves with
      | act _ _ =>
          rw [List.length_append, List.length_cons] at hlength
          simp only [List.mem_singleton, forall_eq]
          omega

/-- How far all tasks have come. -/
def totalAge : Board → Nat
  | [] => 0
  | task :: rest => task.2.age + totalAge rest

theorem totalAge_append (board more : Board) :
    totalAge (board ++ more) = totalAge board + totalAge more := by
  induction board with
  | nil => simp [totalAge]
  | cons task rest ih =>
      rw [List.cons_append, totalAge, totalAge, ih]
      omega

theorem Runs.length_le_totalAge (h : Runs keyword semaphore sources history board) :
    history.length ≤ totalAge board := by
  induction h with
  | begin => simp
  | move _ hmoves ih =>
      cases hmoves with
      | act hacts _ =>
          have hage := hacts.age
          simp only [totalAge_append, totalAge, List.length_append, List.length_singleton] at ih ⊢
          omega

theorem totalAge_le (board : Board) : totalAge board ≤ 6 * board.length := by
  induction board with
  | nil => simp [totalAge]
  | cons task rest ih =>
      have hage : task.2.age ≤ 6 := by
        cases task.2 <;> simp [Stage.age]
      rw [totalAge, List.length_cons]
      omega

/-- No search goes on forever. -/
theorem Runs.length_le (h : Runs keyword semaphore sources history board) :
    history.length ≤ 6 * sources.length := by
  rw [← h.length_board]
  exact Nat.le_trans h.length_le_totalAge (totalAge_le board)

end BookRules.Search
