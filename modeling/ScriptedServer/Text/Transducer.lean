/-!
A transducer reads one symbol at a time, writes some output for each, and at the end writes what it
was still holding back. Both decoders of this library are transducers. Main statements: the fold
that runs in constant stack (`run`) is the plain recursion (`runFrom`), and a run over `xs ++ ys` is
the output for `xs` followed by a run over `ys` from the state that `xs` leaves (`runFrom_append`).
-/

namespace ScriptedServer

/-- A machine with states `σ` that turns symbols `α` into symbols `β`. -/
structure Transducer (σ α β : Type) where
  start : σ
  /-- The output for one symbol, and the state after it. -/
  step : σ → α → List β × σ
  /-- What is written at the end of the input. -/
  flush : σ → List β

namespace Transducer

variable {σ α β : Type} (m : Transducer σ α β)

/-- The output from state `s` on. -/
def runFrom : σ → List α → List β
  | s, [] => m.flush s
  | s, a :: as => (m.step s a).1 ++ runFrom (m.step s a).2 as

/-- The same onto an output that is held in reverse. -/
def runOnto : List β → σ → List α → List β
  | out, s, [] => out.reverse ++ m.flush s
  | out, s, a :: as => runOnto ((m.step s a).1.reverse ++ out) (m.step s a).2 as

/-- The whole output for an input. -/
def run (as : List α) : List β := m.runOnto [] m.start as

/-- The output for `as` without the final flush, and the state after it. -/
def feed : σ → List α → List β × σ
  | s, [] => ([], s)
  | s, a :: as => ((m.step s a).1 ++ (feed (m.step s a).2 as).1, (feed (m.step s a).2 as).2)

theorem runOnto_eq (out : List β) (s : σ) (as : List α) :
    m.runOnto out s as = out.reverse ++ m.runFrom s as := by
  induction as generalizing out s with
  | nil => rfl
  | cons a as ih => simp [runOnto, runFrom, ih]

theorem run_eq (as : List α) : m.run as = m.runFrom m.start as := by
  simp [run, runOnto_eq]

theorem runFrom_append (s : σ) (xs ys : List α) :
    m.runFrom s (xs ++ ys) = (m.feed s xs).1 ++ m.runFrom (m.feed s xs).2 ys := by
  induction xs generalizing s with
  | nil => rfl
  | cons x xs ih => simp [runFrom, feed, ih]

end Transducer
end ScriptedServer
