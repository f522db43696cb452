import OmpBundler.Cli.Operations

/-!
The applying phase, up to the call that fails.

By induction on the plan: the operations before the one that fails have each
been completed, so their undo steps lead back from one state to the one
before. What is lost on the way are the stage artifacts of the completed
writes. Their paths are followed back through the moves that came before the
write.
-/

namespace OmpBundler.Cli

open Library Library.Proc Library.Path

section Applied

variable {α : Type} {root : FilePath} {fault : Option Fault} {index : ℕ}
  {operation : FileOperation α} {operations : List (FileOperation α)}
  {s x : Transaction α} {failure : Failure}

/-- The state after these operations, or after the one that has failed. -/
def stateAfter (root : FilePath) (fault : Option Fault) (operations : List (FileOperation α × ℕ))
    (s : Transaction α) : Transaction α :=
  operations.foldl (fun s (operation, index) =>
    (applyOperation root fault index operation s []).2.1) s

/-- Where a path is after all of these operations have been undone. -/
def traceBack (operations : List (FileOperation α)) (path : FilePath) : FilePath :=
  operations.foldr backPath path

theorem rollback_append (first second : List UndoOperation) :
    (rollback root (first ++ second) x).2 =
      (rollback root second (rollback root first x).2).2 := by
  induction first generalizing x with
  | nil => rfl
  | cons entry first ih => exact ih

/-- The operation at `k`, counted from `index`, has failed in `x`, and what
the undo steps give back. -/
structure StoppedAt (root : FilePath) (fault : Option Fault) (index : ℕ)
    (operations : List (FileOperation α)) (s x : Transaction α) (k : ℕ) (call : Call)
    (entries : List UndoOperation) (extra : List FilePath) : Prop where
  stack : x.undoStack = entries ++ s.undoStack
  created : x.createdDirectories = s.createdDirectories ++ extra
  recorded : ∀ operation, operations[k]? = some operation → Recorded root operation
    (stateAfter root fault ((operations.zipIdx index).take k) s).tree call extra
  returned : Returned root s (rollback root entries x).2
  spent : ∀ p, SpentAt root s (rollback root entries x).2 p ↔
    ∃ j operation q, j < k ∧ operations[j]? = some operation ∧ writtenPath operation = some q ∧
      p = traceBack (operations.take j) q

/-- Each operation that has got past its `mkdir` call has found its directory. -/
def FoundDirectories (root : FilePath) (fault : Option Fault) (index : ℕ)
    (operations : List (FileOperation α)) (s : Transaction α) (k : ℕ) (call : Call) : Prop :=
  ∀ j operation, operations[j]? = some operation →
    j < k ∨ j = k ∧ pastMkdir fault ⟨.applying (index + k), call⟩ →
      DirectoryPresent operation
        (stateAfter root fault ((operations.zipIdx index).take j) s).tree

theorem stoppedAt_first {call : Call} {message : String}
    (failed : FailedAt root fault (.applying index) operation s
      (.failed ⟨.applying index, call⟩ message) x)
    (found : FoundDirectories root fault index (operation :: operations) s 0 call) :
    ∃ entries extra, StoppedAt root fault index (operation :: operations) s x 0 call
      entries extra := by
  obtain ⟨call', message', same, outcome⟩ := failed
  obtain ⟨⟨-, rfl⟩, rfl⟩ : ((Site.applying index = .applying index) ∧ call = call') ∧
      message = message' := by simpa using same
  have either : DirectoryPresent operation s.tree ∨ ¬ pastMkdir fault ⟨.applying index, call⟩ := by
    by_cases past : pastMkdir fault ⟨.applying index, call⟩
    · exact .inl (found 0 operation rfl (.inr ⟨rfl, past⟩))
    · exact .inr past
  obtain ⟨⟨y, stack, returned, unspent⟩, extra, created, recorded⟩ := outcome either
  have nothing (w : Transaction α) (none : ∀ p, ¬ SpentAt root s w p) (p : FilePath) :
      SpentAt root s w p ↔ ∃ j operation' q, j < 0 ∧
        (operation :: operations)[j]? = some operation' ∧ writtenPath operation' = some q ∧
        p = traceBack ((operation :: operations).take j) q := by
    simp [none p]
  have recorded (operation' : FileOperation α) (here : some operation = some operation') :
      Recorded root operation' s.tree call extra := by
    obtain rfl := Option.some.inj here
    exact recorded
  rcases stack with ⟨stack, rfl⟩ | ⟨entry, stack, rfl⟩
  · exact ⟨[], extra, stack, created, recorded, returned, nothing _ unspent⟩
  · exact ⟨[entry], extra, stack, created, recorded, returned, nothing _ unspent⟩

theorem stateAfter_cons (k : ℕ) :
    stateAfter root fault (((operation :: operations).zipIdx index).take (k + 1)) s =
      stateAfter root fault ((operations.zipIdx (index + 1)).take k)
        (applyOperation root fault index operation s []).2.1 := by
  rw [List.zipIdx_cons, List.take_succ_cons, stateAfter, List.foldl_cons]
  rfl

theorem stoppedAt_later {next : Transaction α} {k : ℕ} {call : Call}
    {entries : List UndoOperation} {extra : List FilePath}
    (step : (applyOperation root fault index operation s []).2.1 = next)
    (completed : Completed root operation s next)
    (stopped : StoppedAt root fault (index + 1) operations next x k call entries extra) :
    ∃ entries, StoppedAt root fault index (operation :: operations) s x (k + 1) call
      entries extra := by
  obtain ⟨entry, pushed, back⟩ := completed.back
  obtain ⟨returned, spent⟩ := back _ stopped.returned
  have last : (rollback root (entries ++ [entry]) x).2 =
      (undo root (rollback root entries x).2 entry).2 := by
    rw [rollback_append]
    rfl
  refine ⟨entries ++ [entry], ?_, ?_, ?_, ?_, ?_⟩
  · rw [stopped.stack, pushed, List.append_assoc, List.singleton_append]
  · rw [stopped.created, completed.created]
  · rw [stateAfter_cons, step]
    exact stopped.recorded
  · rw [last]
    exact returned
  · intro p
    rw [last, spent]
    constructor
    · rintro (⟨q, lost, rfl⟩ | written)
      · obtain ⟨j, operation', q', before, here, path, rfl⟩ := (stopped.spent q).mp lost
        exact ⟨j + 1, operation', q', by omega, here, path, rfl⟩
      · exact ⟨0, operation, p, by omega, rfl, written, rfl⟩
    · rintro ⟨j, operation', q, before, here, path, rfl⟩
      cases j with
      | zero =>
          obtain rfl := Option.some.inj here
          exact .inr path
      | succ j =>
          refine .inl ⟨traceBack (operations.take j) q, ?_, rfl⟩
          exact (stopped.spent _).mpr ⟨j, operation', q, by omega, here, path, rfl⟩

/-- Whatever state the phase begins in, it fails at a call of some operation. -/
theorem applyOperations_only {rest : List Empty}
    (run : forEach (operations.zipIdx index)
      (fun (operation, index) => applyOperation root fault index operation) s [] =
        (.threw failure, x, rest)) :
    ∃ k operation call message, operations[k]? = some operation ∧
      failure = .failed ⟨.applying (index + k), call⟩ message := by
  induction operations generalizing index s with
  | nil =>
      have ended := congrArg Prod.fst run
      contradiction
  | cons operation operations ih =>
      have first : Ends _ _ _ (applyOperation root fault index operation s []) :=
        applyOperation_only s [] trivial
      rw [List.zipIdx_cons] at run
      change andThen (applyOperation root fault index operation s [])
        (fun _ => forEach (operations.zipIdx (index + 1)) fun (operation, index) =>
          applyOperation root fault index operation) = _ at run
      generalize applyOperation root fault index operation s [] = result at first run
      obtain ⟨exit, next, script⟩ := result
      have noScript : script = [] := List.eq_nil_iff_forall_not_mem.mpr fun answer => answer.elim
      subst noScript
      cases exit with
      | died => exact first.elim
      | threw failure' =>
          obtain ⟨rfl, -, -⟩ : failure' = failure ∧ next = x ∧ [] = rest := by
            simpa [andThen] using run
          obtain ⟨call, message, rfl, -⟩ := first
          exact ⟨0, operation, call, message, rfl, rfl⟩
      | returned _ =>
          obtain ⟨k, operation', call, message, here, rfl⟩ := ih run
          exact ⟨k + 1, operation', call, message, here, by rw [Nat.add_right_comm]; rfl⟩

/-- When the applying phase fails, it does so at a call of some operation.
If the operations have found their directories, the undo steps give the tree
and the artifacts back. -/
theorem applyOperations_failed (forward : Forward root index s)
    (plain : ∀ operation ∈ operations, PlainOperation operation) {rest : List Empty}
    (run : forEach (operations.zipIdx index)
      (fun (operation, index) => applyOperation root fault index operation) s [] =
        (.threw failure, x, rest)) :
    ∃ k operation call message, operations[k]? = some operation ∧
      failure = .failed ⟨.applying (index + k), call⟩ message ∧
      (FoundDirectories root fault index operations s k call →
        ∃ entries extra, StoppedAt root fault index operations s x k call entries extra) := by
  induction operations generalizing index s with
  | nil =>
      have ended := congrArg Prod.fst run
      contradiction
  | cons operation operations ih =>
      have first : Ends _ _ _ (applyOperation root fault index operation s []) :=
        applyOperation_spec forward (plain operation (List.mem_cons_self ..)) s [] rfl
      rw [List.zipIdx_cons] at run
      change andThen (applyOperation root fault index operation s [])
        (fun _ => forEach (operations.zipIdx (index + 1)) fun (operation, index) =>
          applyOperation root fault index operation) = _ at run
      generalize ran : applyOperation root fault index operation s [] = result at first run
      obtain ⟨exit, next, script⟩ := result
      have noScript : script = [] := List.eq_nil_iff_forall_not_mem.mpr fun answer => answer.elim
      subst noScript
      cases exit with
      | died => exact first.elim
      | threw failure' =>
          obtain ⟨rfl, rfl, -⟩ : failure' = failure ∧ next = x ∧ [] = rest := by
            simpa [andThen] using run
          obtain ⟨call, message, rfl, -⟩ := id first
          exact ⟨0, operation, call, message, rfl, rfl, stoppedAt_first first⟩
      | returned _ =>
          -- The directory may have been missing; then there is nothing to show.
          by_cases there : DirectoryPresent operation s.tree
          · obtain ⟨completed, forward'⟩ := first there
            obtain ⟨k, operation', call, message, here, rfl, stopped⟩ := ih forward'
              (fun operation mem => plain operation (List.mem_cons_of_mem _ mem)) run
            refine ⟨k + 1, operation', call, message, here, by rw [Nat.add_right_comm]; rfl, ?_⟩
            intro found
            have step : (applyOperation root fault index operation s []).2.1 = next := by rw [ran]
            have foundLater : FoundDirectories root fault (index + 1) operations next k call := by
              intro j operation'' here' reached
              have present := found (j + 1) operation'' here' ?_
              · rwa [stateAfter_cons, step] at present
              · rcases reached with before | ⟨rfl, past⟩
                · exact .inl (by omega)
                · exact .inr ⟨rfl, by rwa [Nat.add_right_comm] at past⟩
            obtain ⟨entries, extra, rest⟩ := stopped foundLater
            obtain ⟨entries, all⟩ := stoppedAt_later step completed rest
            exact ⟨entries, extra, all⟩
          · obtain ⟨k, operation', call, message, here, rfl⟩ := applyOperations_only run
            refine ⟨k + 1, operation', call, message, here, by rw [Nat.add_right_comm]; rfl, ?_⟩
            exact fun found => absurd (found 0 operation rfl (.inl (by omega))) there

end Applied

end OmpBundler.Cli
