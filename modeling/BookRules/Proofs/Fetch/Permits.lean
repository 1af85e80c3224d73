import BookRules.Proofs.Fetch.Tasks
import Mathlib.Data.Nat.Find

/-!
# Permits

A task has a permit from when it enters until it leaves, and its request is open only in
between.  So no more requests are open than permits were given and not given back, which is
all that is known of the semaphore: whom it lets in when several wait is left to it.

A search gets stuck only if the semaphore does: as long as permits that are free are given to
tasks that wait, some task can act until all outcomes are collected.
-/

namespace BookRules.Search

def Action.enters : Action → Bool
  | .enter => true
  | _ => false

def Action.leaves : Action → Bool
  | .leave => true
  | _ => false

/-- Permits that were given. -/
def entries (history : List Event) : Nat :=
  history.countP fun event => event.2.enters

/-- Permits that were given back. -/
def exits (history : List Event) : Nat :=
  history.countP fun event => event.2.leaves

/-- A task that wants a permit and has not had one. -/
def Waits (history : List Event) (index : Nat) : Prop :=
  actionsOf index history = [.start]

namespace Semaphore

/-- A permit is only given if fewer than all are out. -/
def Bounded (permits : Nat) (semaphore : Semaphore) : Prop :=
  ∀ history index, semaphore history index → entries history < exits history + permits

/-- A permit that is not out is given to a task that waits for one. -/
def Serves (permits : Nat) (semaphore : Semaphore) : Prop :=
  ∀ history index, Waits history index → entries history < exits history + permits →
    ∃ first, Waits history first ∧ semaphore history first

/-- The first of the tasks that wait gets a permit, as long as there are any. -/
def firstCome (permits : Nat) : Semaphore := fun history index =>
  Waits history index ∧ (∀ other < index, ¬ Waits history other) ∧
    entries history < exits history + permits

theorem bounded_firstCome (permits : Nat) : (firstCome permits).Bounded permits :=
  fun _ _ h => h.2.2

theorem serves_firstCome (permits : Nat) : (firstCome permits).Serves permits := by
  intro history index hwaits hfree
  classical
  have hsome : ∃ index, Waits history index := ⟨index, hwaits⟩
  exact ⟨Nat.find hsome, Nat.find_spec hsome, Nat.find_spec hsome,
    fun other hlt => Nat.find_min hsome hlt, hfree⟩

end Semaphore

variable {keyword : String} {semaphore : Semaphore} {sources : List Source} {source : Source}
  {history : List Event} {board board' before after : Board} {event : Event} {index : Nat}
  {stage stage' : Stage} {action : Action} {permits : Nat}

/-! ## The permits that are out -/

theorem Acts.permits_eq (h : Acts keyword source stage action stage') :
    action.enters.toNat + stage.holds.toNat = action.leaves.toNat + stage'.holds.toNat := by
  cases h <;> rfl

theorem entries_snoc (history : List Event) (index : Nat) (action : Action) :
    entries (history ++ [(index, action)]) = entries history + action.enters.toNat := by
  unfold entries
  cases h : action.enters <;> simp [h]

theorem exits_snoc (history : List Event) (index : Nat) (action : Action) :
    exits (history ++ [(index, action)]) = exits history + action.leaves.toNat := by
  unfold exits
  cases h : action.leaves <;> simp [h]

theorem countP_holds_middle (before after : Board) (source : Source) (stage : Stage) :
    (before ++ (source, stage) :: after).countP (fun task => task.2.holds) =
      before.countP (fun task => task.2.holds) + stage.holds.toNat +
        after.countP fun task => task.2.holds := by
  rw [List.countP_append]
  cases h : stage.holds <;> simp [h]
  omega

/-- The permits that are out are with the tasks. -/
theorem Runs.entries_eq (h : Runs keyword semaphore sources history board) :
    entries history = exits history + board.countP fun task => task.2.holds := by
  induction h with
  | begin => simp [entries, exits, List.countP_map, Stage.holds, Function.comp_def]
  | move _ hmoves ih =>
      cases hmoves with
      | act hacts _ =>
          have hpermits := hacts.permits_eq
          rw [countP_holds_middle] at ih ⊢
          rw [entries_snoc, exits_snoc]
          omega

theorem Runs.countP_holds_le (hbounded : semaphore.Bounded permits)
    (h : Runs keyword semaphore sources history board) :
    (board.countP fun task => task.2.holds) ≤ permits := by
  induction h with
  | begin => simp [List.countP_map, Stage.holds, Function.comp_def]
  | move hruns hmoves ih =>
      cases hmoves with
      | @act before after source stage stage' action hacts hallowed =>
          have hout := hruns.entries_eq
          have hpermits := hacts.permits_eq
          rw [countP_holds_middle] at ih hout ⊢
          by_cases henter : action = .enter
          · subst henter
            have hfree : entries _ < exits _ + permits := hbounded _ _ hallowed
            simp only [Action.enters, Action.leaves, Bool.toNat_true, Bool.toNat_false] at hpermits
            omega
          · have hnone : action.enters = false := by
              cases action <;> first | rfl | exact absurd rfl henter
            simp only [hnone, Bool.toNat_false] at hpermits
            omega

/-- No more requests are open than there are permits. -/
theorem Runs.countP_isAsking_le (hbounded : semaphore.Bounded permits)
    (h : Runs keyword semaphore sources history board) :
    (board.countP fun task => task.2.isAsking) ≤ permits := by
  refine Nat.le_trans (List.countP_mono_left ?_) (h.countP_holds_le hbounded)
  rintro ⟨source, stage⟩ - hasking
  cases stage <;> first | rfl | cases hasking

/-! ## Some task can act -/

theorem exists_first {α : Type} {p : α → Prop} {items : List α} (h : ∃ a ∈ items, p a) :
    ∃ front a back, items = front ++ a :: back ∧ p a ∧ ∀ b ∈ front, ¬ p b := by
  induction items with
  | nil => simp at h
  | cons first rest ih =>
      by_cases hfirst : p first
      · exact ⟨[], first, rest, rfl, hfirst, by simp⟩
      · obtain ⟨front, a, back, rfl, ha, hfront⟩ := ih (by simpa [hfirst] using h)
        exact ⟨first :: front, a, back, rfl, ha, by simpa [hfirst] using hfront⟩

theorem exists_split {task : Source × Stage} (h : board[index]? = some task) :
    ∃ before after, board = before ++ task :: after ∧ before.length = index := by
  obtain ⟨hlt, rfl⟩ := List.getElem?_eq_some_iff.1 h
  refine ⟨board.take index, board.drop (index + 1), by simp, ?_⟩
  rw [List.length_take]
  omega

theorem Stage.Past.eq_waiting (h : stage.Past keyword source [.start]) : stage = .waiting := by
  cases stage with
  | waiting => rfl
  | unstarted => simp [Stage.Past] at h
  | inside => simp [Stage.Past] at h
  | asking request => simp [Stage.Past] at h
  | answered outcome => simp [Stage.Past] at h
  | left outcome => simp [Stage.Past] at h
  | collected outcome => simp [Stage.Past, Life] at h

theorem mem_of_mem_append {task other : Source × Stage} (h : task ∈ before ++ after) :
    task ∈ before ++ other :: after :=
  ((List.sublist_cons_self other after).append_left before).subset h

/-- Of the tasks the semaphore knows which ones wait. -/
theorem Runs.waits_iff (h : Runs keyword semaphore sources history board) :
    Waits history index ↔ ∃ source, board[index]? = some (source, .waiting) := by
  constructor
  · intro hwaits
    have hmem : Action.start ∈ actionsOf index history := by
      rw [show actionsOf index history = [.start] from hwaits]
      exact List.mem_singleton_self _
    obtain ⟨event, hevent, hindex⟩ := List.mem_filterMap.1 hmem
    have hlt : index < board.length := by
      rw [h.length_board]
      split_ifs at hindex with heq
      exact heq ▸ h.index_lt event hevent
    obtain ⟨⟨source, stage⟩, htask⟩ : ∃ task, board[index]? = some task :=
      ⟨board[index], List.getElem?_eq_getElem hlt⟩
    have hpast := h.past htask
    rw [show actionsOf index history = [.start] from hwaits] at hpast
    exact ⟨source, hpast.eq_waiting ▸ htask⟩
  · rintro ⟨source, htask⟩
    exact h.past htask

/-- A task can go on whatever the others do. -/
theorem exists_acts_of_isActive (keyword : String) (source : Source)
    (hactive : stage.isActive = true) :
    ∃ action stage', Acts keyword source stage action stage' ∧ action ≠ .start ∧
      action ≠ .enter := by
  cases stage with
  | unstarted => cases hactive
  | waiting => cases hactive
  | inside =>
      cases hrequest : Request.ofSearch source keyword firstPage with
      | ok request => exact ⟨.send request, _, .send hrequest, by simp, by simp⟩
      | error fault => exact ⟨.leave, _, .giveUp hrequest, by simp, by simp⟩
  | asking request => exact ⟨.answer (.ok ""), _, .answer _, by simp, by simp⟩
  | answered outcome => exact ⟨.leave, _, .leave, by simp, by simp⟩
  | left outcome => exact ⟨.collect outcome, _, .collect, by simp, by simp⟩
  | collected outcome => cases hactive

theorem allowed_of_started (hne : action ≠ .start) (henter : action ≠ .enter)
    (hstarted : ∀ task ∈ before ++ after, task.2.isUnstarted = false) :
    Allowed semaphore history before after action := by
  cases action with
  | start => exact absurd rfl hne
  | enter => exact absurd rfl henter
  | collect outcome => exact hstarted
  | send request => exact trivial
  | answer body => exact trivial
  | leave => exact trivial

/-- If every task waits or is done, no permit is out. -/
theorem Runs.entries_eq_exits (h : Runs keyword semaphore sources history board)
    (hidle : ∀ task ∈ board, task.2.isActive = false) : entries history = exits history := by
  have hnone : (board.countP fun task => task.2.holds) = 0 := by
    rw [List.countP_eq_zero]
    intro task htask
    have hactive := hidle task htask
    revert hactive
    cases task.2 <;> simp [Stage.holds, Stage.isActive]
  rw [h.entries_eq, hnone, Nat.add_zero]

theorem Stage.eq_waiting_or_collected (hstarted : stage.isUnstarted = false)
    (hidle : stage.isActive = false) : stage = .waiting ∨ ∃ outcome, stage = .collected outcome := by
  cases stage with
  | waiting => exact Or.inl rfl
  | collected outcome => exact Or.inr ⟨outcome, rfl⟩
  | unstarted => cases hstarted
  | inside => cases hidle
  | asking request => cases hidle
  | answered outcome => cases hidle
  | left outcome => cases hidle

theorem Runs.exists_waits (h : Runs keyword semaphore sources history board)
    (hmissing : ¬ Returned board) (hstarted : ∀ task ∈ board, task.2.isUnstarted = false)
    (hidle : ∀ task ∈ board, task.2.isActive = false) : ∃ index, Waits history index := by
  simp only [Returned, not_forall] at hmissing
  obtain ⟨⟨source, stage⟩, htask, hnot⟩ := hmissing
  obtain rfl : stage = .waiting :=
    (Stage.eq_waiting_or_collected (hstarted _ htask) (hidle _ htask)).resolve_right hnot
  obtain ⟨index, hindex⟩ := List.mem_iff_getElem?.1 htask
  exact ⟨index, h.waits_iff.2 ⟨source, hindex⟩⟩

/-- As long as an outcome is missing some task can act. -/
theorem Runs.exists_moves (hserves : semaphore.Serves permits) (hpermits : 0 < permits)
    (h : Runs keyword semaphore sources history board) (hmissing : ¬ Returned board) :
    ∃ event board', Moves keyword semaphore history board event board' := by
  by_cases hunstarted : ∃ task ∈ board, task.2.isUnstarted = true
  · obtain ⟨before, ⟨source, stage⟩, after, rfl, hfirst, hbefore⟩ := exists_first hunstarted
    obtain rfl : stage = .unstarted := by
      cases stage <;> first | rfl | cases hfirst
    exact ⟨_, _, .act .start fun task htask => Bool.eq_false_iff.2 (hbefore task htask)⟩
  have hstarted : ∀ task ∈ board, task.2.isUnstarted = false := by simpa using hunstarted
  by_cases hactive : ∃ task ∈ board, task.2.isActive = true
  · obtain ⟨before, ⟨source, stage⟩, after, rfl, hfirst, -⟩ := exists_first hactive
    obtain ⟨action, stage', hacts, hne, henter⟩ := exists_acts_of_isActive keyword source hfirst
    exact ⟨_, _, .act hacts (allowed_of_started hne henter fun task htask =>
      hstarted task (mem_of_mem_append htask))⟩
  -- nobody has a permit, so the semaphore has one for a task that waits
  · have hidle : ∀ task ∈ board, task.2.isActive = false := by simpa using hactive
    obtain ⟨index, hwaits⟩ := h.exists_waits hmissing hstarted hidle
    have hfree : entries history < exits history + permits := by
      rw [h.entries_eq_exits hidle]
      omega
    obtain ⟨first, hfirst, hgrants⟩ := hserves history index hwaits hfree
    obtain ⟨source, htask⟩ := h.waits_iff.1 hfirst
    obtain ⟨before, after, rfl, rfl⟩ := exists_split htask
    exact ⟨_, _, .act .enter hgrants⟩

end BookRules.Search
