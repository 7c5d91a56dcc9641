/-
# Logs that are kept

No task writes a log. So where outputs have been written, or where two trees have
nothing but their logs in common, the logs that can be read have one text, and what is
aligned is aligned to one result.

Key definitions: `FileTree.SameLogs`, `FileTree.Keeps`, `FileTask.KeepsLogs`.
Key theorems: `FileTree.Evolves.keeps`, `alignDataset_of_keeps`, `alignDataset_agrees`,
`readTimeline_of_keeps`, `readTimeline_agrees`.
-/
import BenchLog.Proofs.AlignedLogs
import BenchLog.Proofs.RunFailures
import BenchLog.Proofs.Trails

namespace BenchLog

namespace FileTree

variable {t u v : FileTree} {p : Path} {ending : String} {text text' : List Char}

/-- Two trees have the same files under the names of logs. -/
structure SameLogs (t u : FileTree) : Prop where
  workingDirectory : u.workingDirectory = t.workingDirectory
  content?_eq : ∀ ending ∈ logEndings, ∀ name : String, ending.toList <:+ name.toList →
    ∀ rest, u.content? (name :: rest) = t.content? (name :: rest)

namespace SameLogs

theorem refl (t : FileTree) : t.SameLogs t :=
  ⟨rfl, fun _ _ _ _ _ => rfl⟩

theorem symm (h : t.SameLogs u) : u.SameLogs t :=
  ⟨h.workingDirectory.symm, fun ending hending name hname rest =>
    (h.content?_eq ending hending name hname rest).symm⟩

theorem trans (h : t.SameLogs u) (h' : u.SameLogs v) : t.SameLogs v :=
  ⟨h'.workingDirectory.trans h.workingDirectory, fun ending hending name hname rest =>
    (h'.content?_eq ending hending name hname rest).trans
      (h.content?_eq ending hending name hname rest)⟩

/-- The file that a path of a log leads to is the same. -/
theorem content?_of_locate (h : t.SameLogs u) (hending : ending ∈ logEndings)
    (hname : p.NameEnds ending.toList) {place : Location} (hplace : v.locate p = .ok place) :
    u.content? place = t.content? place := by
  have hlong : ∀ ending ∈ logEndings, 3 ≤ ending.toList.length := by decide
  obtain ⟨front, rest, rfl⟩ := exists_of_locate hplace hname (hlong ending hending)
  have hsuffix : ending.toList <:+ (String.ofList (front ++ ending.toList)).toList :=
    ⟨front, String.toList_ofList.symm⟩
  exact h.content?_eq ending hending _ hsuffix rest

/-- A log that both trees have is the same in both. -/
theorem readText_agrees (h : t.SameLogs u) (hending : ending ∈ logEndings)
    (hname : p.NameEnds ending.toList) (ht : t.readText p = .ok text)
    (hu : u.readText p = .ok text') : text = text' := by
  obtain ⟨place, hplace, hcontent, -⟩ := readText_eq_ok_iff.mp ht
  obtain ⟨place', hplace', hcontent', -⟩ := readText_eq_ok_iff.mp hu
  obtain ⟨-, rfl, -⟩ := locate_eq_ok_iff.mp hplace
  obtain ⟨-, rfl, -⟩ := locate_eq_ok_iff.mp hplace'
  rw [h.workingDirectory, h.content?_of_locate hending hname hplace, hcontent] at hcontent'
  cases hcontent'
  rfl

end SameLogs

/-- A tree in which everything of another one is still of its kind, and the logs are kept. -/
structure Keeps (t u : FileTree) : Prop extends t.Extends u where
  sameLogs : t.SameLogs u

namespace Keeps

theorem refl (t : FileTree) : t.Keeps t :=
  ⟨.refl t, .refl t⟩

theorem trans (h : t.Keeps u) (h' : u.Keeps v) : t.Keeps v :=
  ⟨h.toExtends.trans h'.toExtends, h.sameLogs.trans h'.sameLogs⟩

/-- A log that can be read is still there. -/
theorem readText (h : t.Keeps u) (hending : ending ∈ logEndings)
    (hname : p.NameEnds ending.toList) (hread : t.readText p = .ok text) :
    u.readText p = .ok text := by
  obtain ⟨place, hplace, hcontent, hstep⟩ := readText_eq_ok_iff.mp hread
  refine readText_eq_ok_iff.mpr ⟨place, h.locate hplace, ?_, hstep⟩
  rw [h.sameLogs.content?_of_locate hending hname hplace, hcontent]

end Keeps

/-- Logs are kept where outputs are written. -/
theorem Evolves.keeps {ps : List Path} (h : t.Evolves ps u) (hps : ∀ p ∈ ps, p.IsOutput) :
    t.Keeps u :=
  ⟨h.toExtends, h.toExtends.workingDirectory, fun _ hending _ hname rest =>
    h.content?_eq_of_log hps hending hname rest⟩

end FileTree

namespace FileTask

variable {m : FileTask α} {f : α → FileTask β}

/-- Whatever is there stays of its kind, and no log is changed. -/
def KeepsLogs (m : FileTask α) : Prop :=
  ∀ t : FileTree, t.Keeps (m t).2

theorem keepsLogs_ofExcept (r : Except Error α) : (ofExcept r).KeepsLogs :=
  fun t => .refl t

theorem keeps_bind_snd (hf : ∀ a, (f a).KeepsLogs) (t : FileTree) :
    (m t).2.Keeps ((m >>= f) t).2 := by
  rw [bind_eq]
  rcases m t with ⟨e | a, u⟩
  · exact .refl u
  · exact hf a u

theorem KeepsLogs.bind (hm : m.KeepsLogs) (hf : ∀ a, (f a).KeepsLogs) : (m >>= f).KeepsLogs :=
  fun t => (hm t).trans (keeps_bind_snd hf t)

end FileTask

/-! ### Datasets -/

section Datasets

variable {t u : FileTree} {layout : DatasetLayout} {dir : Path} {source : String}

theorem nameEnds_join_log (dir : Path) (front : String) {ending : String}
    (h : ending ∈ logEndings) : (dir.join ⟨front ++ ending⟩).NameEnds ending.toList := by
  have hslash : ∀ ending ∈ logEndings, '/' ∉ ending.toList := by decide
  exact Path.nameEnds_join dir String.toList_append (hslash ending h)

theorem DatasetLogs.StandIn.of_keeps {logs : DatasetLogs} (h : logs.StandIn t layout dir)
    (hu : t.Keeps u) : logs.StandIn u layout dir where
  ram := hu.readText (by decide) (nameEnds_join_log dir _ (by decide)) h.ram
  cpu := hu.readText (by decide) (nameEnds_join_log dir _ (by decide)) h.cpu
  time := hu.readText (by decide) (nameEnds_join_log dir _ (by decide)) h.time

theorem DatasetLogs.StandIn.eq_of_sameLogs {logs logs' : DatasetLogs}
    (h : logs.StandIn t layout dir) (h' : logs'.StandIn u layout dir) (hu : t.SameLogs u) :
    logs = logs' := by
  obtain ⟨ram, cpu, time⟩ := logs
  obtain ⟨ram', cpu', time'⟩ := logs'
  have hram : ram = ram' :=
    hu.readText_agrees (by decide) (nameEnds_join_log dir _ (by decide)) h.ram h'.ram
  have hcpu : cpu = cpu' :=
    hu.readText_agrees (by decide) (nameEnds_join_log dir _ (by decide)) h.cpu h'.cpu
  have htime : time = time' :=
    hu.readText_agrees (by decide) (nameEnds_join_log dir _ (by decide)) h.time h'.time
  rw [hram, hcpu, htime]

theorem readText_of_readLog {t : FileTree} {p : Path} {text : List Char}
    (h : readLog t p = .ok text) : t.readText p = .ok text := by
  unfold readLog at h
  split at h
  · cases h
  · rename_i text' hread
    split at h
    · cases h
    · cases h
      exact hread

/-- The logs of a dataset that is aligned stand where they are looked for. -/
theorem exists_standIn_of_alignDataset {d : AlignedDataset}
    (h : alignDataset t layout dir source = .ok d) :
    ∃ logs : DatasetLogs, logs.StandIn t layout dir := by
  obtain ⟨ram, hram, h⟩ := exists_of_bind_eq_ok h
  obtain ⟨_, -, h⟩ := exists_of_bind_eq_ok h
  obtain ⟨cpu, hcpu, h⟩ := exists_of_bind_eq_ok h
  obtain ⟨_, -, h⟩ := exists_of_bind_eq_ok h
  obtain ⟨time, htime, -⟩ := exists_of_bind_eq_ok h
  exact ⟨⟨ram, cpu, time⟩, readText_of_readLog hram, readText_of_readLog hcpu,
    readText_of_readLog htime⟩

/-- A dataset that is aligned is aligned to the same tables where its logs are kept. -/
theorem alignDataset_of_keeps (h : t.Keeps u) {d : AlignedDataset}
    (hd : alignDataset t layout dir source = .ok d) : alignDataset u layout dir source = .ok d := by
  obtain ⟨logs, hlogs⟩ := exists_standIn_of_alignDataset hd
  exact (hlogs.of_keeps h).alignDataset_eq_ok_iff.mpr (hlogs.alignDataset_eq_ok_iff.mp hd)

/-- A dataset that is aligned in two trees with the same logs is aligned to the same tables. -/
theorem alignDataset_agrees (h : t.SameLogs u) {d d' : AlignedDataset}
    (hd : alignDataset t layout dir source = .ok d)
    (hd' : alignDataset u layout dir source = .ok d') : d = d' := by
  obtain ⟨logs, hlogs⟩ := exists_standIn_of_alignDataset hd
  obtain ⟨logs', hlogs'⟩ := exists_standIn_of_alignDataset hd'
  cases hlogs.eq_of_sameLogs hlogs' h
  rw [hlogs.alignDataset_eq_ok_iff.mpr (hlogs'.alignDataset_eq_ok_iff.mp hd')] at hd
  exact (Except.ok.inj hd).symm

/-- A dataset that is aligned is aligned to the same tables when a run has gone on. -/
theorem alignDataset_of_evolves {ps : List Path} (h : t.Evolves ps u)
    (hps : ∀ p ∈ ps, p.IsOutput) {d : AlignedDataset}
    (hd : alignDataset t layout dir source = .ok d) : alignDataset u layout dir source = .ok d :=
  alignDataset_of_keeps (h.keeps hps) hd

end Datasets

/-! ### Timelines -/

section Timelines

variable {t u : FileTree} {config : Config} {l : CategoryLayout} {table table' : Table}

theorem readLog_of_keeps (h : t.Keeps u) {p : Path} {ending : String}
    (hending : ending ∈ logEndings) (hname : p.NameEnds ending.toList) {text : List Char}
    (hread : readLog t p = .ok text) : readLog u p = .ok text := by
  have htext := readText_of_readLog hread
  rw [readLog, htext] at hread
  rw [readLog, h.readText hending hname htext]
  exact hread

theorem readTimeline_of_keeps (h : t.Keeps u)
    (ht : readTimeline t (config.preprocessingLog l) = .ok table) :
    readTimeline u (config.preprocessingLog l) = .ok table := by
  obtain ⟨text, hread, htable⟩ := exists_of_bind_eq_ok ht
  have hkept := readLog_of_keeps h (by decide) (nameEnds_preprocessingLog config l) hread
  rw [readTimeline, hkept]
  exact htable

theorem readTimeline_agrees (h : t.SameLogs u)
    (ht : readTimeline t (config.preprocessingLog l) = .ok table)
    (hu : readTimeline u (config.preprocessingLog l) = .ok table') : table = table' := by
  obtain ⟨text, hread, htable⟩ := exists_of_bind_eq_ok ht
  obtain ⟨text', hread', htable'⟩ := exists_of_bind_eq_ok hu
  cases h.readText_agrees (by decide) (nameEnds_preprocessingLog config l)
    (readText_of_readLog hread) (readText_of_readLog hread')
  rw [htable] at htable'
  exact Except.ok.inj htable'

end Timelines

end BenchLog
