/-
# Pairing the two sides of a repetition

Repetitions may overlap, and a number may recur, also while a repetition of
that number is still open. An end is paired with the oldest open start of its
number; an end without one is dropped. The pairs are put in the order of their
start lines, and of their end lines where these are equal.

Key definitions: `RepetitionPair`, `PairingState`, `PairingState.step`,
`Pairing`, `Pairing.ofRecords`.
Key theorems: `PairingState.step_start`, `Pairing.perm_pairs`.
-/
import BenchLog.Log.Ram
import BenchLog.Queue

namespace BenchLog

/-- The two sides of one repetition. -/
structure RepetitionPair where
  start : Record
  finish : Record

namespace RepetitionPair

/-- The repetition of a pair. -/
def repetition (p : RepetitionPair) : UInt32 := p.finish.repetition

/-- Whether a pair stands before another or in the same place. -/
def precedes (p q : RepetitionPair) : Bool :=
  p.start.line < q.start.line ||
    (p.start.line == q.start.line && p.finish.line ≤ q.finish.line)

end RepetitionPair

/-- What pairing has come to after some records. -/
structure PairingState where
  /-- The starts that are still open, the oldest one first. -/
  pending : List Record
  /-- The pairs, the latest one first. -/
  pairs : List RepetitionPair
  droppedEnds : Nat

namespace PairingState

/-- Nothing read yet. -/
def empty : PairingState := ⟨[], [], 0⟩

/-- One more record. -/
def step (s : PairingState) (r : Record) : PairingState :=
  match r.side with
  | .start => { s with pending := s.pending ++ [r] }
  | .finish =>
    match takeFirst (·.repetition == r.repetition) s.pending with
    | some (start, pending) => { s with pending, pairs := ⟨start, r⟩ :: s.pairs }
    | none => { s with droppedEnds := s.droppedEnds + 1 }

theorem step_start {s : PairingState} {r : Record} (h : r.side = .start) :
    s.step r = { s with pending := s.pending ++ [r] } := by
  simp [step, h]

end PairingState

/-- The result of pairing. -/
structure Pairing where
  /-- The pairs in the order of their lines. -/
  pairs : List RepetitionPair
  /-- The number of ends that had no open start. -/
  droppedEnds : Nat
  /-- The number of starts that stayed open. -/
  unmatchedStarts : Nat

namespace Pairing

/-- The pairs of a list of records. Pairs of equal lines keep the order of
their ends. -/
def ofRecords (records : List Record) : Pairing :=
  let s := records.foldl PairingState.step .empty
  { pairs := s.pairs.reverse.mergeSort RepetitionPair.precedes
    droppedEnds := s.droppedEnds
    unmatchedStarts := s.pending.length }

/-- Sorting changes the order of the pairs only. -/
theorem perm_pairs (records : List Record) :
    (ofRecords records).pairs.Perm (records.foldl PairingState.step .empty).pairs :=
  (List.mergeSort_perm _ _).trans (List.reverse_perm _)

end Pairing
end BenchLog
