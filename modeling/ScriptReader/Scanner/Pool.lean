import ScriptReader.Scanner.Basic

/-! # A pool of scanners

Scanners that are out of use wait in the pool to be loaded again. A released scanner is emptied
before it is kept, so nothing of one text can be seen by the next owner.
-/

namespace ScriptReader

structure Pool where
  idle : List Scanner := []

namespace Pool

/-- Takes the scanner released last and loads a text into it, or makes a new one. -/
def acquire (pool : Pool) (text : String) : Scanner × Pool :=
  match pool.idle with
  | [] => (.ofString text, pool)
  | scanner :: rest => (scanner.load text, ⟨rest⟩)

/-- Empties a scanner and keeps it for the next owner. -/
def release (pool : Pool) (scanner : Scanner) : Pool := ⟨scanner.reset :: pool.idle⟩

/-- The number of scanners that wait. -/
def idleCount (pool : Pool) : Nat := pool.idle.length

/-- Whatever waits in the pool, its next owner gets a scanner as good as new. -/
@[simp] theorem acquire_fst (pool : Pool) (text : String) :
    (pool.acquire text).1 = .ofString text := by
  unfold acquire
  cases pool.idle <;> rfl

/-- A scanner that waits is used before a new one is made. -/
@[simp] theorem idle_acquire (pool : Pool) (text : String) :
    (pool.acquire text).2.idle = pool.idle.tail := by
  unfold acquire
  cases waiting : pool.idle with
  | nil => exact waiting
  | cons => rfl

@[simp] theorem idle_release (pool : Pool) (scanner : Scanner) :
    (pool.release scanner).idle = .empty :: pool.idle := rfl

end Pool

end ScriptReader
