/-
# The categories of a benchmark

The logs of one category stand in one folder. There are two kinds of
benchmark, and each runs its repetitions one after the other or in parallel; a
parallel category is compared with its sequential counterpart.

Key definitions: `Category`, `Category.all`, `Category.name`,
`Category.counterpart?`, `Category.ofName?`.
Key theorems: `mem_all`, `name_injective`, `counterpart?_counterpart?`.
-/
namespace BenchLog

/-- What the logs of a folder measure. -/
inductive Category where
  | singlePerformance
  | preprocessingPerformance
  | singlePerformanceParallel
  | preprocessingPerformanceParallel
  deriving DecidableEq, Repr

/-- Whether two texts are equal up to the case of ASCII letters. -/
def sameUpToCase (a b : String) : Bool :=
  a.toList.map Char.toLower == b.toList.map Char.toLower

/-- Whether a written name is the given one, in any case if `anyCase`. -/
def namesMatch (anyCase : Bool) (written name : String) : Bool :=
  if anyCase then sameUpToCase written name else written == name

namespace Category

/-- The categories in their order. -/
def all : List Category :=
  [singlePerformance, preprocessingPerformance, singlePerformanceParallel,
   preprocessingPerformanceParallel]

/-- The name of a category; its folder has the same one unless configured. -/
def name : Category → String
  | singlePerformance => "singlePerformance"
  | preprocessingPerformance => "preprocessingPerformance"
  | singlePerformanceParallel => "singlePerformanceParallel"
  | preprocessingPerformanceParallel => "preprocessingPerformanceParallel"

/-- The sequential category that a parallel one is compared with. -/
def counterpart? : Category → Option Category
  | singlePerformanceParallel => some singlePerformance
  | preprocessingPerformanceParallel => some preprocessingPerformance
  | singlePerformance | preprocessingPerformance => none

/-- The category of a name. -/
def ofName? (anyCase : Bool) (written : String) : Option Category :=
  all.find? fun c => namesMatch anyCase written c.name

theorem mem_all (c : Category) : c ∈ all := by
  cases c <;> decide

theorem name_injective {c d : Category} (h : c.name = d.name) : c = d := by
  cases c <;> cases d <;> simp_all [name]

/-- A counterpart is sequential: it has no counterpart of its own. -/
theorem counterpart?_counterpart? {c d : Category} (h : c.counterpart? = some d) :
    d.counterpart? = none := by
  cases c <;> simp_all [counterpart?] <;> subst h <;> rfl

end Category
end BenchLog
