import Bundler.Console.Basic
import Mathlib.Data.List.Induction

/-!
# Logging while the console changes

Installing a backend, a reset and a change of the level leave one handler of the console's own attached,
bound to the backend in use, and the foreign ones as they were (`Steady`). The level of the logger is the
last one set since the last reset (`threshold_after`), and each message from that level on is written once
(`logs_once_after`).
-/

namespace Bundler.Console

/-- What can be done to a console between messages. -/
inductive Operation
  | install (backend : Nat)
  | reset
  | setLevel (level : Nat)
  deriving DecidableEq, Repr

namespace Operation

def apply (console : Console) : Operation → Console
  | .install backend => console.install backend
  | .reset => console.reset
  | .setLevel level => console.setLevel level

def level? : Operation → Option Nat
  | .setLevel level => some level
  | _ => none

end Operation

variable (width : Nat) (words : Vocabulary)

/-- The console after operations, on a logger that had foreign handlers. -/
def after (foreign : List Nat) (operations : List Operation) : Console :=
  operations.foldl Operation.apply (start foreign width words)

/-- The level set last since the last reset, or the usual one. -/
def levelAfter (operations : List Operation) : Nat :=
  ((operations.reverse.takeWhile (· ≠ .reset)).findSome? Operation.level?).getD Level.info.number

variable {foreign : List Nat} {operations : List Operation} {operation : Operation} {console : Console}

theorem after_concat (foreign : List Nat) (operations : List Operation) (operation : Operation) :
    after width words foreign (operations ++ [operation]) = operation.apply (after width words foreign operations) :=
  List.foldl_append

@[simp] theorem levelAfter_install (operations : List Operation) (backend : Nat) :
    levelAfter (operations ++ [.install backend]) = levelAfter operations := by
  simp [levelAfter, List.findSome?_cons, Operation.level?]

@[simp] theorem levelAfter_reset (operations : List Operation) :
    levelAfter (operations ++ [.reset]) = Level.info.number := by
  simp [levelAfter]

@[simp] theorem levelAfter_setLevel (operations : List Operation) (level : Nat) :
    levelAfter (operations ++ [.setLevel level]) = level := by
  simp [levelAfter, List.findSome?_cons, Operation.level?]

/-! ### What an operation preserves -/

/-- One handler is the console's own and writes to the backend in use, the others are the foreign ones in
their order, and the logger has the console's level. The number of the next backend is not in use. -/
structure Steady (foreign : List Nat) (console : Console) : Prop where
  own : console.handlers.filter isOwn = [.own console.backend]
  others : console.handlers.filter (!isOwn ·) = foreign.map .foreign
  threshold : console.threshold = console.level
  next : console.backend < console.nextBackend

theorem steady_attach (hothers : console.handlers.filter (!isOwn ·) = foreign.map .foreign)
    (hnext : console.backend < console.nextBackend) : Steady foreign console.attach where
  own := by
    have hnone : (console.handlers.filter (!isOwn ·)).filter isOwn = [] := by
      simp [List.filter_filter]
    rw [attach, List.filter_append, hnone]
    rfl
  others := by
    rw [attach, List.filter_append, List.filter_filter]
    simpa [isOwn] using hothers
  threshold := rfl
  next := hnext

theorem steady_start (foreign : List Nat) : Steady foreign (start foreign width words) := by
  refine steady_attach ?_ Nat.zero_lt_one
  rw [List.filter_map]
  exact congrArg _ (List.filter_eq_self.2 fun _ _ => rfl)

theorem Steady.apply (h : Steady foreign console) (operation : Operation) :
    Steady foreign (operation.apply console) := by
  cases operation with
  | install backend =>
    exact steady_attach h.others (Nat.lt_of_lt_of_le backend.lt_succ_self (Nat.le_max_right ..))
  | reset => exact steady_attach h.others (Nat.lt_succ_self _)
  | setLevel level => exact ⟨h.own, h.others, rfl, h.next⟩

theorem nextBackend_le_apply (console : Console) (operation : Operation) :
    console.nextBackend ≤ (operation.apply console).nextBackend := by
  cases operation with
  | install backend => exact Nat.le_max_left ..
  | reset => exact Nat.le_succ _
  | setLevel level => exact Nat.le_refl _

/-! ### What operations preserve -/

theorem steady_after (foreign : List Nat) (operations : List Operation) :
    Steady foreign (after width words foreign operations) := by
  induction operations using List.reverseRecOn with
  | nil => exact steady_start width words foreign
  | append_singleton before operation ih =>
    rw [after_concat]
    exact ih.apply operation

theorem level_after (foreign : List Nat) (operations : List Operation) :
    (after width words foreign operations).level = levelAfter operations := by
  induction operations using List.reverseRecOn with
  | nil => rfl
  | append_singleton before operation ih =>
    rw [after_concat]
    cases operation with
    | install backend => exact ih.trans (levelAfter_install before backend).symm
    | reset => exact (levelAfter_reset before).symm
    | setLevel level => exact (levelAfter_setLevel before level).symm

theorem threshold_after (foreign : List Nat) (operations : List Operation) :
    (after width words foreign operations).threshold = levelAfter operations :=
  (steady_after width words foreign operations).threshold.trans (level_after width words foreign operations)

theorem nextBackend_le_after (foreign : List Nat) (before later : List Operation) :
    (after width words foreign before).nextBackend ≤ (after width words foreign (before ++ later)).nextBackend := by
  induction later using List.reverseRecOn with
  | nil => exact Nat.le_of_eq (by rw [List.append_nil])
  | append_singleton later operation ih =>
    rw [← List.append_assoc, after_concat]
    exact Nat.le_trans ih (nextBackend_le_apply _ operation)

theorem backend_after_levels (foreign : List Nat) (before : List Operation) {quiet : List Operation}
    (h : ∀ operation ∈ quiet, operation.level?.isSome) :
    (after width words foreign (before ++ quiet)).backend = (after width words foreign before).backend := by
  induction quiet using List.reverseRecOn with
  | nil => rw [List.append_nil]
  | append_singleton quiet operation ih =>
    rw [List.forall_mem_append, List.forall_mem_singleton] at h
    rw [← List.append_assoc, after_concat, ← ih h.1]
    cases operation with
    | setLevel level => rfl
    | install backend => exact absurd h.2 nofun
    | reset => exact absurd h.2 nofun

/-! ### What a message does -/

/-- Only the console's own handlers write. -/
theorem deliver_filter (level : Level) (message : String) (handlers : List Handler) (console : Console) :
    console.deliver level message handlers = console.deliver level message (handlers.filter isOwn) := by
  induction handlers generalizing console with
  | nil => rfl
  | cons handler rest ih =>
    cases handler with
    | foreign number => exact ih console
    | own backend =>
      rw [List.filter_cons_of_pos rfl, deliver, deliver]
      simp only [ih]

theorem Steady.filter_receivers (h : Steady foreign console) (level : Nat) :
    (console.receivers level).filter isOwn
      = if console.threshold ≤ level then [.own console.backend] else [] := by
  rw [receivers]
  split
  · exact h.own
  · rfl

theorem Steady.log_eq (h : Steady foreign console) (level : Level) (message : String) :
    console.log level message
      = if console.threshold ≤ level.number then
          (console.logLines level message).map (console.write console.backend)
        else .ok console := by
  rw [log, deliver_filter, h.filter_receivers]
  split
  · rw [deliver]
    cases console.logLines level message <;> rfl
  · rfl

/-- However backends are installed, the console reset and levels set: one handler of the console's own is
attached, the one for the last backend installed or made, beside the foreign ones in their order; the level
of the logger is the last one set since the last reset, which no new backend changes; and that handler gets
each message from this level on, once, and no other one. -/
theorem logs_once_after (foreign : List Nat) (operations : List Operation) :
    (after width words foreign operations).handlers.filter isOwn
      = [.own (after width words foreign operations).backend] ∧
    (after width words foreign operations).handlers.filter (!isOwn ·) = foreign.map .foreign ∧
    ((∀ operation ∈ operations, operation.level?.isSome) →
      (after width words foreign operations).backend = (start foreign width words).backend) ∧
    (∀ before backend quiet, operations = before ++ .install backend :: quiet →
      (∀ operation ∈ quiet, operation.level?.isSome) →
        (after width words foreign operations).backend = backend) ∧
    (∀ before quiet, operations = before ++ .reset :: quiet →
      (∀ operation ∈ quiet, operation.level?.isSome) →
      ∀ earlier, earlier <+: before →
        (after width words foreign operations).backend ≠ (after width words foreign earlier).backend) ∧
    (after width words foreign operations).threshold = levelAfter operations ∧
    (∀ backend, (after width words foreign (operations ++ [.install backend])).threshold
      = (after width words foreign operations).threshold) ∧
    (∀ level, ((after width words foreign operations).receivers level).filter isOwn
      = if levelAfter operations ≤ level then [.own (after width words foreign operations).backend] else []) ∧
    ∀ level message, (after width words foreign operations).log level message
      = if levelAfter operations ≤ level.number then
          ((after width words foreign operations).logLines level message).map
            ((after width words foreign operations).write (after width words foreign operations).backend)
        else .ok (after width words foreign operations) := by
  have hsteady := steady_after width words foreign operations
  have hlevel := threshold_after width words foreign operations
  refine ⟨hsteady.own, hsteady.others, backend_after_levels width words foreign [], ?installed, ?reset, hlevel,
    ?swapped, ?received, ?logged⟩
  case installed =>
    rintro before backend quiet rfl hquiet
    rw [List.append_cons, backend_after_levels width words foreign _ hquiet, after_concat]
    rfl
  case reset =>
    rintro before quiet rfl hquiet earlier ⟨later, rfl⟩
    rw [List.append_cons, backend_after_levels width words foreign _ hquiet, after_concat]
    have hearlier := (steady_after width words foreign earlier).next
    have hlater := nextBackend_le_after width words foreign earlier later
    exact Nat.ne_of_gt (Nat.lt_of_lt_of_le hearlier hlater)
  case swapped =>
    intro backend
    rw [threshold_after, levelAfter_install, hlevel]
  case received => exact fun level => hlevel ▸ hsteady.filter_receivers level
  case logged => exact fun level message => hlevel ▸ hsteady.log_eq level message

/-- A level outlives the backend that it was set on, and no reset. -/
theorem logs_once_after_swaps :
    (after 80 .standard [7, 8] [.setLevel 10]).backend = (start [7, 8] 80).backend ∧
    (after 80 .standard [7, 8] [.setLevel 10, .install 3, .install 4, .setLevel 30]).backend = 4 ∧
    (after 80 .standard [7, 8] [.setLevel 10, .install 3, .reset, .setLevel 30]).backend
      ≠ (after 80 .standard [7, 8] [.setLevel 10, .install 3]).backend ∧
    (after 80 .standard [7, 8] [.setLevel 10, .install 3]).threshold = 10 ∧
    (after 80 .standard [7, 8] [.setLevel 10, .install 3, .reset]).threshold = 20 := by
  obtain ⟨-, -, hfirst, -⟩ := logs_once_after 80 .standard [7, 8] [.setLevel 10]
  obtain ⟨-, -, -, hinstalled, -⟩ :=
    logs_once_after 80 .standard [7, 8] [.setLevel 10, .install 3, .install 4, .setLevel 30]
  obtain ⟨-, -, -, -, hreset, -⟩ :=
    logs_once_after 80 .standard [7, 8] [.setLevel 10, .install 3, .reset, .setLevel 30]
  obtain ⟨-, -, -, -, -, hkept, -⟩ := logs_once_after 80 .standard [7, 8] [.setLevel 10, .install 3]
  obtain ⟨-, -, -, -, -, hlost, -⟩ := logs_once_after 80 .standard [7, 8] [.setLevel 10, .install 3, .reset]
  exact ⟨hfirst (by decide), hinstalled [.setLevel 10, .install 3] 4 [.setLevel 30] rfl (by decide),
    hreset [.setLevel 10, .install 3] [.setLevel 30] rfl (by decide) _ (List.prefix_refl _),
    hkept.trans (by decide), hlost.trans (by decide)⟩

end Bundler.Console
